import Mathlib.Data.List.Basic
import SymbolAtlas.Proofs.Portion
import SymbolAtlas.Proofs.Reachable

namespace SymbolAtlas

namespace Store

variable {s t : Store} {run : Int}

theorem get?_part_of_view {α : Type} {t : Table α} (h : t.Ordered) {f : α → Int} {id : Int}
    (hv : t.view f id = some run) : (t.part fun _ a => f a == run).get? id = t.get? id := by
  obtain ⟨a, ha, rfl⟩ := Table.view_eq_some_iff.mp hv
  rw [h.get?_part, ha]
  exact Option.filter_eq_some_iff.mpr ⟨rfl, beq_self_eq_true _⟩

theorem location?_only (h : s.Scoped) {document range : Int} (hi : s.InRun run document range) :
    (s.only run).location? document range = s.location? document range := by
  have hd : (s.only run).documents.get? document = s.documents.get? document :=
    get?_part_of_view h.ordered.documents hi.ofRun
  have hr : (s.only run).ranges.get? range = s.ranges.get? range := by
    obtain ⟨r, hr, rfl⟩ := Table.view_eq_some_iff.mp hi.ofDocument
    simp only [only, h.ordered.ranges.get?_part, hr]
    exact Option.filter_eq_some_iff.mpr ⟨rfl, by simp [hi.ofRun]⟩
  simp only [location?, hd, hr]

theorem inDocument_only (h : s.Scoped) (uri : String) (r : Range) :
    (s.only run).inDocument run uri r = s.inDocument run uri r := by
  simp only [inDocument, Table.holds, only, h.ordered.documents.get?_part]
  cases s.documents.get? r.document with
  | none => rfl
  | some d =>
    by_cases he : d.run = run
    · simp [Option.filter, he]
    · simp [Option.filter, he]

theorem documentRun?_of_inDocument {uri : String} {r : Range} (h : s.inDocument run uri r = true) :
    s.documentRun? r.document = some run := by
  obtain ⟨d, hd, hp⟩ := Table.holds_iff.mp h
  rw [Bool.and_eq_true, beq_iff_eq] at hp
  exact Table.view_eq_some_iff.mpr ⟨d, hd, hp.1⟩

theorem covering_only (h : s.Scoped) (uri : String) (p : Position) :
    (s.only run).covering run uri p = s.covering run uri p := by
  simp only [covering, inDocument_only h]
  simp only [only, Table.part, Table.keep, List.filterMap_filter]
  refine List.filterMap_congr fun r _ => ?_
  cases hd : s.inDocument run uri r.2 with
  | false => simp
  | true => simp [documentRun?_of_inDocument hd]

theorem mem_covering {uri : String} {p : Position} {r : RangeDetails}
    (h : r ∈ s.covering run uri p) :
    (r.id, r.range) ∈ s.ranges.rows ∧ s.documentRun? r.range.document = some run := by
  obtain ⟨row, hr, he⟩ := List.mem_filterMap.mp h
  split at he
  next hc =>
    cases Option.some.inj he
    exact ⟨hr, documentRun?_of_inDocument (Bool.and_eq_true_iff.mp hc).1⟩
  next => simp at he

theorem innermost?_only (h : s.Scoped) (uri : String) (p : Position) :
    (s.only run).innermost? run uri p = s.innermost? run uri p := by
  simp only [innermost?, covering_only h]

theorem innermost?_mem {uri : String} {p : Position} {r : RangeDetails}
    (h : s.innermost? run uri p = some r) : r ∈ s.covering run uri p :=
  List.mem_mergeSort.mp (List.mem_of_head? h)

theorem resultSetRun?_of_innermost? (h : s.Scoped) {uri : String} {p : Position}
    {r : RangeDetails} {k : Int} (hi : s.innermost? run uri p = some r)
    (hk : r.range.resultSet = some k) : s.resultSetRun? k = some run := by
  obtain ⟨hm, hd⟩ := mem_covering (innermost?_mem hi)
  obtain ⟨j, hj, hs⟩ := h.ranges _ hm
  cases Option.some.inj (hj.symm.trans hd)
  exact hs k hk

theorem resultSetAt?_only (h : s.Scoped) (uri : String) (p : Position) :
    (s.only run).resultSetAt? ⟨run, uri, p⟩ = s.resultSetAt? ⟨run, uri, p⟩ := by
  simp only [resultSetAt?, innermost?_only h]
  cases hi : s.innermost? run uri p with
  | none => rfl
  | some r =>
    cases hk : r.range.resultSet with
    | none => simp [hk]
    | some k =>
      simp only [Option.bind_eq_bind, Option.bind_some, hk]
      exact get?_part_of_view h.ordered.resultSets (resultSetRun?_of_innermost? h hi hk)

theorem resultSetAt?_mem (h : s.Scoped) {uri : String} {p : Position} {a : ResultSet}
    (ha : s.resultSetAt? ⟨run, uri, p⟩ = some a) :
    ∃ k, (k, a) ∈ s.resultSets.rows ∧ a.run = run := by
  obtain ⟨r, hi, hb⟩ := Option.bind_eq_some_iff.mp ha
  obtain ⟨k, hk, hg⟩ := Option.bind_eq_some_iff.mp hb
  obtain ⟨b, hb, he⟩ := Table.view_eq_some_iff.mp (resultSetRun?_of_innermost? h hi hk)
  cases Option.some.inj (hb.symm.trans hg)
  exact ⟨k, Table.mem_of_get? hg, he⟩

theorem bucketAt?_only (h : s.Scoped) (uri : String) (p : Position) (kind : BucketKind) :
    (s.only run).bucketAt? ⟨run, uri, p⟩ kind = s.bucketAt? ⟨run, uri, p⟩ kind := by
  simp only [bucketAt?, resultSetAt?_only h]

theorem filterMap_portion {α β : Type} {rows : List α} {owner : α → Int} {f g : α → Option β}
    (hn : ∀ r, owner r ≠ run → g r = none) (he : ∀ r ∈ rows, owner r = run → f r = g r) :
    (rows.filter fun r => owner r == run).filterMap f = rows.filterMap g := by
  rw [List.filterMap_filter]
  refine List.filterMap_congr fun r hr => ?_
  by_cases ho : owner r = run
  · rw [if_pos (beq_iff_eq.mpr ho)]
    exact he r hr ho
  · rw [if_neg (by simpa using ho), hn r ho]

theorem definitionsIn_only (h : s.Scoped) (bucket : Int) :
    (s.only run).definitionsIn run bucket = s.definitionsIn run bucket := by
  refine filterMap_portion (fun r hr => by simp [hr]) fun r hr he => ?_
  have hi := h.definitionItems r hr
  rw [he] at hi
  rw [location?_only h hi]

theorem referencesIn_only (h : s.Scoped) (bucket : Int) (includeDefinitions : Bool) :
    (s.only run).referencesIn run bucket includeDefinitions =
      s.referencesIn run bucket includeDefinitions := by
  refine filterMap_portion (fun r hr => by simp [hr]) fun r hr he => ?_
  have hi := h.referenceItems r hr
  rw [he] at hi
  rw [location?_only h hi]

theorem targetsAt_only (h : s.Scoped) (uri : String) (p : Position) (kind : BucketKind) :
    (s.only run).targetsAt ⟨run, uri, p⟩ kind = s.targetsAt ⟨run, uri, p⟩ kind := by
  simp only [targetsAt, bucketAt?_only h, contentsOf, definitionsIn_only h, referencesIn_only h]

theorem hoverAt?_only (h : s.Scoped) (uri : String) (p : Position) :
    (s.only run).hoverAt? ⟨run, uri, p⟩ = s.hoverAt? ⟨run, uri, p⟩ := by
  simp only [hoverAt?, resultSetAt?_only h]
  cases ha : s.resultSetAt? ⟨run, uri, p⟩ with
  | none => rfl
  | some a =>
    obtain ⟨k, hm, rfl⟩ := resultSetAt?_mem h ha
    cases hh : a.hover with
    | none => simp [hh]
    | some hover =>
      have hg : (s.only a.run).hovers.get? hover = s.hovers.get? hover :=
        get?_part_of_view h.ordered.hovers (h.hoverOf _ hm hover hh)
      simp only [Option.bind_eq_bind, Option.bind_some, hh, hg]

theorem symbolOf?_only {moniker : Int} (hm : s.monikerRun? moniker = some run) :
    (s.only run).symbolOf? moniker = s.symbolOf? moniker := by
  simp only [symbolOf?, only, linksOf, List.find?_filter]
  congr 2
  funext l
  by_cases he : l.moniker = moniker
  · simp [he, hm]
  · simp [he]

theorem monikerDetails?_only (h : s.Scoped) {moniker : Int}
    (hm : s.monikerRun? moniker = some run) :
    (s.only run).monikerDetails? moniker = s.monikerDetails? moniker := by
  have hg : (s.only run).monikers.get? moniker = s.monikers.get? moniker :=
    get?_part_of_view h.ordered.monikers hm
  obtain ⟨m, ha, rfl⟩ := Table.view_eq_some_iff.mp hm
  simp only [monikerDetails?, hg, symbolOf?_only hm, ha, Option.map_some]
  cases hp : m.package with
  | none => rfl
  | some package =>
    have hk : (s.only m.run).packages.get? package = s.packages.get? package :=
      get?_part_of_view h.ordered.packages (h.packageOf _ (Table.mem_of_get? ha) package hp)
    simp only [Option.bind_some, hk]

theorem monikerAt?_only (h : s.Scoped) (uri : String) (p : Position) :
    (s.only run).monikerAt? ⟨run, uri, p⟩ = s.monikerAt? ⟨run, uri, p⟩ := by
  simp only [monikerAt?, resultSetAt?_only h]
  cases ha : s.resultSetAt? ⟨run, uri, p⟩ with
  | none => rfl
  | some a =>
    obtain ⟨k, hk, rfl⟩ := resultSetAt?_mem h ha
    cases hm : a.moniker with
    | none => simp [hm]
    | some moniker =>
      simp only [Option.bind_eq_bind, Option.bind_some, hm]
      exact monikerDetails?_only h (h.monikerOf _ hk moniker hm)

theorem occurrencesOf_only (h : s.Scoped) (symbol : Int) (role : Option Role) :
    (s.only run).occurrencesOf run symbol role = s.occurrencesOf run symbol role := by
  unfold occurrencesOf
  congr 1
  refine filterMap_portion (fun o ho => by simp [ho]) fun o ho he => ?_
  have hi := (h.occurrences o ho).1
  rw [he] at hi
  rw [location?_only h hi]

theorem count_part {α : Type} {t : Table α} (p : α → Bool) :
    (t.part fun _ a => p a).count p = t.count p := by
  simp [Table.count, Table.part, Table.keep, List.countP_filter]

theorem stats_only (h : s.Scoped) : (s.only run).stats run = s.stats run := by
  have hr : (s.only run).ranges.count
        (fun r => (s.only run).documents.holds r.document fun d => d.run == run) =
      s.ranges.count fun r => s.documents.holds r.document fun d => d.run == run := by
    have hd : ∀ id, (s.only run).documents.holds id (fun d => d.run == run) =
        (s.documentRun? id == some run) := by
      intro id
      rw [Bool.eq_iff_iff, Table.holds_iff, beq_iff_eq, documentRun?, Table.view_eq_some_iff]
      simp only [only, h.ordered.documents.get?_part, Option.filter_eq_some_iff, beq_iff_eq]
      constructor
      · rintro ⟨d, hd, hr⟩
        exact ⟨d, hd.1, hr⟩
      · rintro ⟨d, hd, hr⟩
        exact ⟨d, ⟨hd, hr⟩, hr⟩
    have hs : ∀ id, s.documents.holds id (fun d => d.run == run) =
        (s.documentRun? id == some run) := by
      intro id
      rw [Bool.eq_iff_iff, beq_iff_eq]
      exact losesDocument_iff
    simp only [hd, hs]
    exact count_part fun r : Range => s.documentRun? r.document == some run
  have ho : (s.only run).occurrenceTotal run = s.occurrenceTotal run := by
    simp [occurrenceTotal, only, List.countP_filter]
  simp only [stats, hr, ho]
  simp only [only, count_part]

theorem run_only (h : s.Scoped) : (s.only run).runs.get? run = s.runs.get? run := by
  simp only [only, h.ordered.runs.get?_part, beq_self_eq_true]
  cases s.runs.get? run <;> rfl

theorem get?_symbols_only (h : s.Scoped) (symbol : Int) :
    (s.only run).symbols.get? symbol =
      if s.linksTo run symbol then s.symbols.get? symbol else none := by
  simp only [only, h.ordered.symbols.get?_part]
  cases s.linksTo run symbol <;> cases s.symbols.get? symbol <;> rfl

theorem mem_matching_iff {terms : List String} {m : SymbolMatch} :
    m ∈ s.matching run terms ↔
      (∃ e ∈ s.searchIndex, e.symbol = m.id ∧
        matchesAny (phrases terms) [e.qualifiedName, e.identifier] = true) ∧
      s.symbols.get? m.id = some m.symbol ∧
      (s.occurrences.countP fun o => o.run == run && o.symbol == m.id) = m.occurrenceCount := by
  unfold matching
  rw [List.mem_mergeSort, List.mem_filterMap]
  constructor
  · rintro ⟨e, he, hm⟩
    split at hm
    next ha =>
      obtain ⟨symbol, hs, rfl⟩ := Option.map_eq_some_iff.mp hm
      exact ⟨⟨e, he, rfl, ha⟩, hs, rfl⟩
    next => simp at hm
  · rintro ⟨⟨e, he, hi, ha⟩, hs, hc⟩
    refine ⟨e, he, ?_⟩
    rw [if_pos ha, hi, hs, hc]
    rfl

theorem mem_matching_only (h : s.Scoped) {terms : List String} {m : SymbolMatch}
    (hl : s.linksTo run m.id = true) :
    m ∈ (s.only run).matching run terms ↔ m ∈ s.matching run terms := by
  rw [mem_matching_iff, mem_matching_iff, get?_symbols_only h, if_pos hl]
  have hc : ((s.only run).occurrences.countP fun o => o.run == run && o.symbol == m.id) =
      s.occurrences.countP fun o => o.run == run && o.symbol == m.id := by
    simp only [only, List.countP_filter]
    refine List.countP_congr fun o _ => ?_
    simp only [Bool.and_eq_true]
    tauto
  rw [hc]
  refine and_congr_left fun _ => exists_congr fun e => ?_
  simp only [only, List.mem_filter, and_assoc]
  refine and_congr_right fun _ => ⟨And.right, fun hi => ⟨?_, hi⟩⟩
  rw [hi.1]
  exact hl

theorem mem_matching_of_search {settings : QuerySettings} {query : String} {limit : Option Nat}
    {found : List SymbolMatch} (h : s.searchByName settings run query limit = .ok found)
    {m : SymbolMatch} (hm : m ∈ found) : m ∈ s.matching run (queryTerms query) := by
  unfold searchByName at h
  split at h
  next => simp at h
  next =>
    split at h
    next =>
      cases h
      simp at hm
    next =>
      cases h
      unfold search takeLimit at hm
      split at hm
      next => exact List.mem_of_mem_take hm
      next => exact hm

/-- All that can be asked about a run has the same answers in two stores. -/
structure SameAnswers (run : Int) (s t : Store) : Prop where
  record : t.runs.get? run = s.runs.get? run
  stats : t.stats run = s.stats run
  definitionsAt : ∀ uri p, t.definitionsAt ⟨run, uri, p⟩ = s.definitionsAt ⟨run, uri, p⟩
  referencesAt : ∀ uri p includeDefinitions,
    t.referencesAt ⟨run, uri, p⟩ includeDefinitions =
      s.referencesAt ⟨run, uri, p⟩ includeDefinitions
  typeDefinitionsAt : ∀ uri p,
    t.typeDefinitionsAt ⟨run, uri, p⟩ = s.typeDefinitionsAt ⟨run, uri, p⟩
  implementationsAt : ∀ uri p,
    t.implementationsAt ⟨run, uri, p⟩ = s.implementationsAt ⟨run, uri, p⟩
  hoverAt? : ∀ uri p, t.hoverAt? ⟨run, uri, p⟩ = s.hoverAt? ⟨run, uri, p⟩
  monikerAt? : ∀ uri p, t.monikerAt? ⟨run, uri, p⟩ = s.monikerAt? ⟨run, uri, p⟩
  occurrencesOf : ∀ symbol role, t.occurrencesOf run symbol role = s.occurrencesOf run symbol role
  linked : ∀ symbol, t.LinkedFrom run symbol ↔ s.LinkedFrom run symbol
  symbols : ∀ symbol, s.LinkedFrom run symbol → t.symbols.get? symbol = s.symbols.get? symbol
  matching : ∀ terms m, s.LinkedFrom run m.id →
    (m ∈ t.matching run terms ↔ m ∈ s.matching run terms)
  searchByName : ∀ settings settings' query query' limit limit' before after,
    s.searchByName settings run query limit = .ok before →
    t.searchByName settings' run query' limit' = .ok after →
    ∀ m ∈ before, s.LinkedFrom run m.id → ∀ m' ∈ after, m'.id = m.id → m' = m

theorem linksTo_of_only (he : t.only run = s.only run) (symbol : Int) :
    t.linksTo run symbol = s.linksTo run symbol := by
  have hk : t.linksOf run = s.linksOf run := congrArg Store.links he
  simp only [linksTo, hk]

theorem symbols_of_only (hs : s.Scoped) (ht : t.Scoped) (he : t.only run = s.only run)
    {symbol : Int} (hl : s.LinkedFrom run symbol) :
    t.symbols.get? symbol = s.symbols.get? symbol := by
  have hk := linksTo_iff.mpr hl
  have hg : (t.only run).symbols.get? symbol = t.symbols.get? symbol := by
    rw [get?_symbols_only ht, linksTo_of_only he, if_pos hk]
  rw [← hg, he, get?_symbols_only hs, if_pos hk]

theorem matching_of_only (hs : s.Scoped) (ht : t.Scoped) (he : t.only run = s.only run)
    {terms : List String} {m : SymbolMatch} (hl : s.LinkedFrom run m.id) :
    m ∈ t.matching run terms ↔ m ∈ s.matching run terms := by
  have hk := linksTo_iff.mpr hl
  rw [← mem_matching_only ht ((linksTo_of_only he m.id).trans hk), he, mem_matching_only hs hk]

theorem match_unique {terms terms' : List String} {m m' : SymbolMatch}
    (h : m ∈ s.matching run terms) (h' : m' ∈ s.matching run terms') (hid : m'.id = m.id) :
    m' = m := by
  obtain ⟨-, hs, hc⟩ := mem_matching_iff.mp h
  obtain ⟨-, hs', hc'⟩ := mem_matching_iff.mp h'
  cases m
  cases m'
  subst hid
  cases Option.some.inj (hs.symm.trans hs')
  cases hc.symm.trans hc'
  rfl

/-- The answers about a run depend on its portion of the store only. -/
theorem sameAnswers_of_only (hs : s.Scoped) (ht : t.Scoped) (he : t.only run = s.only run) :
    SameAnswers run s t where
  record := by rw [← run_only ht, he, run_only hs]
  stats := by rw [← stats_only ht, he, stats_only hs]
  definitionsAt uri p := by
    unfold Store.definitionsAt
    rw [← bucketAt?_only ht, he, bucketAt?_only hs]
    split
    next => rw [← definitionsIn_only ht, he, definitionsIn_only hs]
    next => rfl
  referencesAt uri p includeDefinitions := by
    unfold Store.referencesAt
    rw [← bucketAt?_only ht, he, bucketAt?_only hs]
    split
    next => rw [← referencesIn_only ht, he, referencesIn_only hs]
    next => rfl
  typeDefinitionsAt uri p := by
    unfold Store.typeDefinitionsAt
    rw [← targetsAt_only ht, he, targetsAt_only hs]
  implementationsAt uri p := by
    unfold Store.implementationsAt
    rw [← targetsAt_only ht, he, targetsAt_only hs]
  hoverAt? uri p := by rw [← hoverAt?_only ht, he, hoverAt?_only hs]
  monikerAt? uri p := by rw [← monikerAt?_only ht, he, monikerAt?_only hs]
  occurrencesOf symbol role := by rw [← occurrencesOf_only ht, he, occurrencesOf_only hs]
  linked symbol := by rw [← linksTo_iff, ← linksTo_iff, linksTo_of_only he]
  symbols _ hl := symbols_of_only hs ht he hl
  matching _ _ hl := matching_of_only hs ht he hl
  searchByName _ _ _ _ _ _ _ _ hb ha m hm hl m' hm' hid := by
    have hl' : s.LinkedFrom run m'.id := hid ▸ hl
    have hin : m' ∈ s.matching run _ :=
      (matching_of_only hs ht he hl').mp (mem_matching_of_search ha hm')
    exact match_unique (mem_matching_of_search hb hm) hin hid

end Store

theorem only_withDump {s : Store} {run : Int} (h : s.Scoped) (hr : s.runs.has run = true)
    (about : RunMeta) (createdAt : Int) (stream : ByteStream) :
    (s.withDump about createdAt stream).only run = s.only run := by
  have hne : s.runs.last + 1 ≠ run := (h.ordered.runs.ne_next hr).symm
  exact withDump_keeps (motive := fun t => t.only run = s.only run) h about createdAt stream
    (Store.spares_withRun hne about createdAt).only fun ha w he => (w.spares ha hne).only.trans he

theorem Operation.Makes.only {op : Operation} {s t : Store} {run : Int} (m : op.Makes s t)
    (h : s.Scoped) (hr : s.runs.has run = true) (ht : op.target? ≠ some run) :
    t.only run = s.only run := by
  have hother : ∀ other, op.target? = some other → other ≠ run := fun other ho he =>
    ht (ho.trans (congrArg some he))
  cases m with
  | stored settings about stream createdAt => exact only_withDump h hr about createdAt stream
  | ingested settings about stream createdAt =>
    have hne : s.runs.last + 1 ≠ run := (h.ordered.runs.ne_next hr).symm
    rw [Store.only_derived (scoped_withDump h about createdAt stream) hne]
    exact only_withDump h hr about createdAt stream
  | derived other => exact Store.only_derived h (hother other rfl)
  | rebuilt other =>
    have hw := (Store.extends_withoutOccurrences h other).scoped h
    rw [Store.only_derived hw (hother other rfl)]
    exact (Store.spares_withoutOccurrences (hother other rfl)).only
  | deleted other =>
    rw [(Store.spares_pruned (Store.scoped_withoutRun h other)).only]
    exact (Store.spares_withoutRun h (hother other rfl)).only

/-- An operation that is not about a run changes no answer about it. -/
theorem run_isolation {s : Store} (h : Reachable s) {run : Int} (hr : s.runs.has run = true)
    (op : Operation) (access : Access) (ht : op.target? ≠ some run) :
    s.SameAnswers run (op.after access s) := by
  have hs := h.scoped
  refine Store.sameAnswers_of_only hs (scoped_after hs op access) ?_
  rcases op.after_cases access s with he | hm
  · rw [he]
  · exact hm.only hs hr ht

/-- The sample keeps its text when the same dump is stored once more. -/
theorem sample_keeps_hover :
    sampleStore.hoverAt? ⟨1, "a", ⟨0, 5⟩⟩ = some "f" ∧
      ((Operation.ingest {} {} sampleDump).after {} sampleStore).hoverAt? ⟨1, "a", ⟨0, 5⟩⟩ =
        some "f" := by
  have hover : sampleStore.hoverAt? ⟨1, "a", ⟨0, 5⟩⟩ = some "f" := by decide +kernel
  have same := run_isolation reachable_sample (by decide : sampleStore.runs.has 1 = true)
    (.ingest {} {} sampleDump) {} (by decide)
  exact ⟨hover, (same.hoverAt? "a" ⟨0, 5⟩).trans hover⟩

end SymbolAtlas
