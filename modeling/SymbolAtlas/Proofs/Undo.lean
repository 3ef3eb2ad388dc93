import Mathlib.Data.List.Dedup
import Mathlib.Data.List.Sort
import SymbolAtlas.Proofs.Catalog
import SymbolAtlas.Proofs.Freshness
import SymbolAtlas.Proofs.Reading

namespace SymbolAtlas

theorem eq_of_increasing {α : Type} {key : α → Int} {l₁ l₂ : List α}
    (h₁ : l₁.Pairwise fun a b => key a < key b) (h₂ : l₂.Pairwise fun a b => key a < key b)
    (h : ∀ a, a ∈ l₁ ↔ a ∈ l₂) : l₁ = l₂ := by
  have irrefl : Std.Irrefl fun a b : α => key a < key b := ⟨fun a => Int.lt_irrefl (key a)⟩
  have antisymm : Std.Antisymm fun a b : α => key a < key b :=
    ⟨fun a b hab hba => absurd hab (Int.lt_asymm hba)⟩
  exact h₁.eq_of_mem_iff h₂ h

theorem eq_of_portions {α : Type} {key : α → Int} {l₁ l₂ : List α} {live : Int → Prop}
    {p q : Int → α → Bool} (h : ∀ k, live k → l₁.filter (p k) = l₂.filter (q k))
    (h₁ : l₁.Pairwise fun a b => key a < key b) (h₂ : l₂.Pairwise fun a b => key a < key b)
    (hp : ∀ a ∈ l₁, ∃ k, live k ∧ p k a = true) (hq : ∀ a ∈ l₂, ∃ k, live k ∧ q k a = true) :
    l₁ = l₂ := by
  refine eq_of_increasing h₁ h₂ fun a => ⟨fun ha => ?_, fun ha => ?_⟩
  · obtain ⟨k, hk, he⟩ := hp a ha
    have hm : a ∈ l₁.filter (p k) := List.mem_filter.mpr ⟨ha, he⟩
    rw [h k hk] at hm
    exact (List.mem_filter.mp hm).1
  · obtain ⟨k, hk, he⟩ := hq a ha
    have hm : a ∈ l₂.filter (q k) := List.mem_filter.mpr ⟨ha, he⟩
    rw [← h k hk] at hm
    exact (List.mem_filter.mp hm).1

namespace Table

variable {α : Type} {t u : Table α} {live : Int → Prop}

theorem rows_eq_of_part {p q : Int → Int → α → Bool} (ht : t.Ordered) (hu : u.Ordered)
    (h : ∀ k, live k → t.part (p k) = u.part (q k))
    (hp : ∀ r ∈ t.rows, ∃ k, live k ∧ p k r.1 r.2 = true)
    (hq : ∀ r ∈ u.rows, ∃ k, live k ∧ q k r.1 r.2 = true) : t.rows = u.rows :=
  eq_of_portions (fun k hk => congrArg rows (h k hk)) ht.increasing hu.increasing hp hq

theorem rows_eq_of_run {f : α → Int} (ht : t.Ordered) (hu : u.Ordered)
    (h : ∀ k, live k → (t.part fun _ a => f a == k) = u.part fun _ a => f a == k)
    (hp : ∀ r ∈ t.rows, live (f r.2)) (hq : ∀ r ∈ u.rows, live (f r.2)) : t.rows = u.rows :=
  rows_eq_of_part ht hu h (fun r hr => ⟨_, hp r hr, beq_self_eq_true _⟩)
    fun r hr => ⟨_, hq r hr, beq_self_eq_true _⟩

end Table

namespace Store

variable {s t : Store}

/-- Two stores that differ at most in the numbers that they give out next. -/
structure SameRows (s t : Store) : Prop where
  runs : t.runs.rows = s.runs.rows
  documents : t.documents.rows = s.documents.rows
  hovers : t.hovers.rows = s.hovers.rows
  packages : t.packages.rows = s.packages.rows
  monikers : t.monikers.rows = s.monikers.rows
  symbols : t.symbols.rows = s.symbols.rows
  links : t.links = s.links
  resultSets : t.resultSets.rows = s.resultSets.rows
  ranges : t.ranges.rows = s.ranges.rows
  definitionItems : t.definitionItems.rows = s.definitionItems.rows
  referenceItems : t.referenceItems.rows = s.referenceItems.rows
  occurrences : t.occurrences = s.occurrences
  searchIndex : t.searchIndex = s.searchIndex

theorem increasing_links (h : s.Scoped) (hc : s.Catalogued) :
    s.links.Pairwise fun a b => a.moniker < b.moniker := by
  have hm : (s.links.map MonikerLink.moniker).Pairwise (· < ·) := by
    rw [hc.links]
    exact List.pairwise_map.mpr h.ordered.monikers.increasing
  exact List.pairwise_map.mp hm

theorem link_live (h : s.Scoped) {l : MonikerLink} (hl : l ∈ s.links) :
    ∃ run, s.runs.has run = true ∧ s.monikerRun? l.moniker = some run := by
  obtain ⟨m, hm⟩ := Table.has_iff.mp (h.links l hl).1
  exact ⟨m.run, h.monikers _ (Table.mem_of_get? hm), Table.view_eq_some_iff.mpr ⟨m, hm, rfl⟩⟩

theorem symbol_live (h : s.Scoped) (ha : s.Attached) {r : Int × Symbol}
    (hr : r ∈ s.symbols.rows) : ∃ run, s.runs.has run = true ∧ s.linksTo run r.1 = true := by
  obtain ⟨l, hl, he⟩ := isLinked_iff.mp (ha r hr)
  obtain ⟨run, hlive, hm⟩ := link_live h hl
  exact ⟨run, hlive, linksTo_iff.mpr ⟨l, hl, he, hm⟩⟩

theorem range_live (h : s.Scoped) {r : Int × Range} (hr : r ∈ s.ranges.rows) :
    ∃ run, s.runs.has run = true ∧ (s.documentRun? r.2.document == some run) = true := by
  obtain ⟨run, hd, -⟩ := h.ranges r hr
  obtain ⟨d, hg, rfl⟩ := Table.view_eq_some_iff.mp hd
  exact ⟨d.run, h.documents _ (Table.mem_of_get? hg), beq_iff_eq.mpr hd⟩

/-- Every row is in the portion of some run, so stores with the same runs and portions have the
same rows. -/
theorem sameRows_of_only (hs : s.Scoped) (ht : t.Scoped) (cs : s.Catalogued ∧ s.Attached)
    (ct : t.Catalogued ∧ t.Attached) (live : ∀ k, t.runs.has k = true ↔ s.runs.has k = true)
    (he : ∀ k, s.runs.has k = true → t.only k = s.only k) (ho : t.occurrences = s.occurrences) :
    SameRows s t := by
  have hsymbols : t.symbols.rows = s.symbols.rows := by
    refine Table.rows_eq_of_part ht.ordered.symbols hs.ordered.symbols
      (fun k hk => congrArg Store.symbols (he k hk)) (fun r hr => ?_)
      fun r hr => symbol_live hs cs.2 hr
    obtain ⟨k, hk, hl⟩ := symbol_live ht ct.2 hr
    exact ⟨k, (live k).mp hk, hl⟩
  constructor
  case symbols => exact hsymbols
  case searchIndex => rw [ct.1.index, cs.1.index, hsymbols]
  case occurrences => exact ho
  case runs =>
    refine Table.rows_eq_of_part ht.ordered.runs hs.ordered.runs
      (fun k hk => congrArg Store.runs (he k hk))
      (fun r hr => ⟨r.1, (live _).mp ?_, beq_self_eq_true _⟩)
      fun r hr => ⟨r.1, ?_, beq_self_eq_true _⟩
    · exact Table.has_iff.mpr ⟨r.2, ht.ordered.runs.get?_eq_some_iff.mpr hr⟩
    · exact Table.has_iff.mpr ⟨r.2, hs.ordered.runs.get?_eq_some_iff.mpr hr⟩
  case links =>
    refine eq_of_portions (p := fun k l => t.monikerRun? l.moniker == some k)
      (q := fun k l => s.monikerRun? l.moniker == some k)
      (fun k hk => congrArg Store.links (he k hk)) (increasing_links ht ct.1)
      (increasing_links hs cs.1) (fun l hl => ?_) fun l hl => ?_
    · obtain ⟨k, hk, hm⟩ := link_live ht hl
      exact ⟨k, (live k).mp hk, beq_iff_eq.mpr hm⟩
    · obtain ⟨k, hk, hm⟩ := link_live hs hl
      exact ⟨k, hk, beq_iff_eq.mpr hm⟩
  case ranges =>
    refine Table.rows_eq_of_part ht.ordered.ranges hs.ordered.ranges
      (fun k hk => congrArg Store.ranges (he k hk)) (fun r hr => ?_) fun r hr => range_live hs hr
    obtain ⟨k, hk, hd⟩ := range_live ht hr
    exact ⟨k, (live k).mp hk, hd⟩
  case documents =>
    exact Table.rows_eq_of_run ht.ordered.documents hs.ordered.documents
      (fun k hk => congrArg Store.documents (he k hk))
      (fun r hr => (live _).mp (ht.documents r hr)) hs.documents
  case hovers =>
    exact Table.rows_eq_of_run ht.ordered.hovers hs.ordered.hovers
      (fun k hk => congrArg Store.hovers (he k hk))
      (fun r hr => (live _).mp (ht.hovers r hr)) hs.hovers
  case packages =>
    exact Table.rows_eq_of_run ht.ordered.packages hs.ordered.packages
      (fun k hk => congrArg Store.packages (he k hk))
      (fun r hr => (live _).mp (ht.packages r hr)) hs.packages
  case monikers =>
    exact Table.rows_eq_of_run ht.ordered.monikers hs.ordered.monikers
      (fun k hk => congrArg Store.monikers (he k hk))
      (fun r hr => (live _).mp (ht.monikers r hr)) hs.monikers
  case resultSets =>
    exact Table.rows_eq_of_run ht.ordered.resultSets hs.ordered.resultSets
      (fun k hk => congrArg Store.resultSets (he k hk))
      (fun r hr => (live _).mp (ht.resultSets r hr)) hs.resultSets
  case definitionItems =>
    exact Table.rows_eq_of_run ht.ordered.definitionItems hs.ordered.definitionItems
      (fun k hk => congrArg Store.definitionItems (he k hk))
      (fun r hr => (live _).mp ((ht.definitionItems r hr).live ht))
      fun r hr => (hs.definitionItems r hr).live hs
  case referenceItems =>
    exact Table.rows_eq_of_run ht.ordered.referenceItems hs.ordered.referenceItems
      (fun k hk => congrArg Store.referenceItems (he k hk))
      (fun r hr => (live _).mp ((ht.referenceItems r hr).live ht))
      fun r hr => (hs.referenceItems r hr).live hs

theorem occurrences_removed (h : s.Scoped) (run : Int) :
    (s.withoutRun run).pruned.occurrences = s.occurrences.filter fun o => o.run != run := by
  have hw : (s.withoutRun run).occurrences = s.occurrences.filter fun o => o.run != run := by
    refine List.filter_congr fun o ho => ?_
    have hl : s.losesOccurrence run o = (o.run == run) := by
      rw [Bool.eq_iff_iff, beq_iff_eq]
      exact (h.occurrences o ho).1.loses_iff
    rw [hl]
    rfl
  rw [← hw]
  refine List.filter_eq_self.mpr fun o ho => ?_
  have hl := ((scoped_withoutRun h run).occurrences o ho).2
  rw [isOrphan_of_linksTo (linksTo_iff.mpr hl)]
  rfl

theorem filter_occurrences_old (h : s.Scoped) :
    s.occurrences.filter (fun o => o.run != s.runs.last + 1) = s.occurrences :=
  List.filter_eq_self.mpr fun o ho => by
    simpa using h.ordered.runs.ne_next ((h.occurrences o ho).1.live h)

end Store

theorem ingest_ok_occurrences {access : Access} {settings : IngestSettings} {about : RunMeta}
    {stream : ByteStream} {report : Report} {s t : Store} (h : s.Scoped)
    (hi : ingest settings about stream access s = (.ok report, t)) :
    ∃ createdAt occurrences,
      t = { s.withDump about createdAt stream with occurrences := occurrences } ∧
        occurrences.filter (fun o => o.run != s.runs.last + 1) = s.occurrences := by
  obtain ⟨-, createdAt, rfl | rfl⟩ := ingest_ok_cases hi
  · refine ⟨createdAt, (s.withDump about createdAt stream).occurrences, rfl, ?_⟩
    rw [Store.occurrences_withDump h, Store.filter_occurrences_old h]
  · refine ⟨createdAt, _, Store.derived_eq _ _, ?_⟩
    have hs := scoped_withDump h about createdAt stream
    rw [Store.filter_foldl_of_none fun o ho => by simp [Store.foundIn_inRun hs ho],
      Store.occurrences_withDump h, Store.filter_occurrences_old h]

theorem ingest_ok_makes {access : Access} {settings : IngestSettings} {about : RunMeta}
    {stream : ByteStream} {report : Report} {s t : Store}
    (hi : ingest settings about stream access s = (.ok report, t)) :
    (Operation.ingest settings about stream).Makes s t := by
  obtain ⟨-, createdAt, rfl | rfl⟩ := ingest_ok_cases hi
  · exact .stored settings about stream createdAt
  · exact .ingested settings about stream createdAt

theorem sameRows_of_removed {access : Access} {settings : IngestSettings} {about : RunMeta}
    {stream : ByteStream} {report : Report} {s t : Store} (h : s.Scoped)
    (hc : s.Catalogued ∧ s.Attached)
    (hi : ingest settings about stream access s = (.ok report, t)) :
    s.SameRows (t.withoutRun (s.runs.last + 1)).pruned := by
  have hm := ingest_ok_makes hi
  have hd := Operation.Makes.deleted (s := t) (s.runs.last + 1)
  have ht := hm.scoped h
  obtain ⟨createdAt, occurrences, rfl, ho⟩ := ingest_ok_occurrences h hi
  obtain ⟨-, hruns⟩ := Store.runs_withDump h about createdAt stream
  refine Store.sameRows_of_only h (hd.scoped ht) hc (hd.catalogued ht (hm.catalogued h hc))
    (fun k => ?_) (fun k hk => ?_) ?_
  · refine (Store.has_run_withoutRun ht.ordered).trans ?_
    constructor
    · rintro ⟨hk, hne⟩
      exact ((hruns k).mp hk).resolve_right hne
    · exact fun hk => ⟨(hruns k).mpr (.inl hk), h.ordered.runs.ne_next hk⟩
  · have hne := h.ordered.runs.ne_next hk
    rw [hd.only ht ((hruns k).mpr (.inl hk)) fun he => hne (Option.some.inj he).symm]
    exact hm.only h hk nofun
  · rw [Store.occurrences_removed ht]
    exact ho

/-- The name of the moniker that a record declares. -/
def Element.monikerName? : Element → Option (String × String)
  | .vertex (.moniker _ scheme identifier _ _) => some (scheme, identifier)
  | _ => none

def ByteStream.monikerNames (s : ByteStream) : List (String × String) :=
  s.records.filterMap Element.monikerName?

def Store.monikerNames (s : Store) : List (String × String) :=
  s.monikers.rows.map fun r => r.2.name

theorem Store.monikerNames_settingPackage (s : Store) (moniker package : Int) :
    (s.settingPackage moniker package).monikerNames = s.monikerNames := by
  unfold monikerNames settingPackage Table.modify
  rw [List.map_map]
  refine List.map_congr_left fun r _ => ?_
  simp only [Function.comp_apply]
  split <;> rfl

namespace Stage

theorem monikerNames_edge (p : Stage) (e : Edge) :
    (p.edge e).store.monikerNames = p.store.monikerNames := by
  cases e with
  | contains outV inVs =>
    simp only [edge]
    split
    next => rfl
    next document _ =>
      refine List.foldlRecOn (motive := fun q : Stage =>
        q.store.monikerNames = p.store.monikerNames) inVs (claim document) rfl fun q hq id _ => ?_
      unfold claim
      split <;> exact hq
  | next outV inV =>
    simp only [edge, next]
    repeat' split
    all_goals rfl
  | moniker outV inV =>
    simp only [edge]
    split <;> rfl
  | packageInformation outV inV =>
    simp only [edge]
    split
    next => exact Store.monikerNames_settingPackage _ _ _
    next => rfl
  | bucket kind outV inV =>
    simp only [edge, bucket]
    split <;> rfl
  | hover outV inV =>
    simp only [edge]
    split <;> rfl
  | item outV inVs inV property =>
    refine List.foldlRecOn (motive := fun q : Stage =>
      q.store.monikerNames = p.store.monikerNames) _ (item outV property) rfl fun q hq id _ => ?_
    unfold item
    split
    next => exact hq
    next =>
      dsimp only
      split <;> exact hq
  | other => rfl

theorem monikerNames_element (p : Stage) (e : Element) :
    (p.element e).store.monikerNames = p.store.monikerNames ++ e.monikerName?.toList := by
  cases e with
  | edge e =>
    rw [show (Element.edge e).monikerName?.toList = [] from rfl, List.append_nil]
    exact monikerNames_edge _ e
  | vertex v =>
    cases v with
    | moniker id scheme identifier kind package => exact List.map_append
    | _ => exact (List.append_nil _).symm

theorem monikerNames_line (p : Stage) (bytes : List UInt8) :
    (p.line bytes).store.monikerNames =
      p.store.monikerNames ++
        ((Element.ofLine? (trimLine bytes)).bind Element.monikerName?).toList := by
  unfold line
  split
  next ht =>
    rw [ht]
    exact (List.append_nil _).symm
  next ht =>
    split
    next he =>
      rw [he]
      exact (List.append_nil _).symm
    next e he =>
      rw [he]
      exact monikerNames_element _ e

theorem monikerNames_lines (p : Stage) (lines : List (List UInt8)) :
    (lines.foldl line p).store.monikerNames =
      p.store.monikerNames ++ (lines.filterMap fun bytes =>
        Element.ofLine? (trimLine bytes)).filterMap Element.monikerName? := by
  induction lines generalizing p with
  | nil => exact (List.append_nil _).symm
  | cons bytes rest ih =>
    rw [List.foldl_cons, ih, monikerNames_line, List.append_assoc]
    congr 1
    cases he : Element.ofLine? (trimLine bytes) with
    | none => simp [he]
    | some e =>
      cases hn : e.monikerName? with
      | none => simp [he, hn]
      | some name => simp [he, hn]

end Stage

theorem monikerNames_withDump (s : Store) (about : RunMeta) (createdAt : Int)
    (stream : ByteStream) :
    (s.withDump about createdAt stream).monikerNames = s.monikerNames ++ stream.monikerNames :=
  Stage.monikerNames_lines _ stream.lines

namespace Store

variable {s t : Store}

theorem mem_symbolNames_iff_moniker (h : s.Scoped) (hc : s.Catalogued ∧ s.Attached)
    {name : String × String} : name ∈ s.symbolNames ↔ name ∈ s.monikerNames :=
  (mem_symbolNames_iff h hc.1 hc.2).trans List.mem_map.symm

/-- The names that are new among some, each once. -/
def newNames (s : Store) (names : List (String × String)) : List (String × String) :=
  (names.filter fun name => (s.symbolNamed? name.1 name.2).isNone).dedup

theorem mem_newNames_iff {names : List (String × String)} {name : String × String} :
    name ∈ s.newNames names ↔ name ∈ names ∧ name ∉ s.symbolNames := by
  rw [newNames, List.mem_dedup, List.mem_filter, Option.isNone_iff_eq_none,
    symbolNamed?_eq_none_iff]

theorem length_symbolNames (hs : s.Scoped) (ht : t.Scoped) (cs : s.Catalogued ∧ s.Attached)
    (ct : t.Catalogued ∧ t.Attached) {names : List (String × String)}
    (hn : t.monikerNames = s.monikerNames ++ names) :
    t.symbolNames.length = s.symbolNames.length + (s.newNames names).length := by
  have hnodup : (s.symbolNames ++ s.newNames names).Nodup := by
    refine List.nodup_append.mpr ⟨cs.1.distinct, List.nodup_dedup _, ?_⟩
    rintro name ho new hnew rfl
    exact (mem_newNames_iff.mp hnew).2 ho
  have hperm : t.symbolNames.Perm (s.symbolNames ++ s.newNames names) := by
    refine (List.perm_ext_iff_of_nodup ct.1.distinct hnodup).mpr fun name => ?_
    rw [mem_symbolNames_iff_moniker ht ct, hn, List.mem_append, List.mem_append,
      ← mem_symbolNames_iff_moniker hs cs, mem_newNames_iff]
    by_cases ho : name ∈ s.symbolNames <;> simp [ho]
  rw [hperm.length_eq, List.length_append]

theorem orphanCount_eq (s : Store) :
    s.pruned.symbols.rows.length + s.orphanCount = s.symbols.rows.length := by
  have hsplit := List.length_eq_countP_add_countP (fun r : Int × Symbol => s.isLinked r.1)
    (l := s.symbols.rows)
  rw [hsplit, List.countP_eq_length_filter]
  simp [pruned, orphanCount, Table.keep]

end Store

section Undo

variable {s t u : Store} {access access' : Access} {settings : IngestSettings} {about : RunMeta}
  {stream : ByteStream} {report : Report}

theorem monikerNames_ingest (h : s.Scoped)
    (hi : ingest settings about stream access s = (.ok report, t)) :
    t.monikerNames = s.monikerNames ++ stream.monikerNames := by
  obtain ⟨createdAt, occurrences, rfl, -⟩ := ingest_ok_occurrences h hi
  exact monikerNames_withDump s about createdAt stream

theorem orphanCount_removed (h : s.Scoped) (hc : s.Catalogued ∧ s.Attached)
    (hi : ingest settings about stream access s = (.ok report, t)) :
    (t.withoutRun (s.runs.last + 1)).orphanCount = (s.newNames stream.monikerNames).length := by
  have hm := ingest_ok_makes hi
  have hnew := Store.length_symbolNames h (hm.scoped h) hc (hm.catalogued h hc)
    (monikerNames_ingest h hi)
  have hgone := (t.withoutRun (s.runs.last + 1)).orphanCount_eq
  have hkeep : (t.withoutRun (s.runs.last + 1)).symbols = t.symbols := rfl
  rw [(sameRows_of_removed h hc hi).symbols, hkeep] at hgone
  simp only [Store.symbolNames, List.length_map] at hnew
  omega

/-- Deleting a run just after its ingest leaves the rows that were there before, and the symbols
that go are as many as the dump has names of monikers that had no symbol. -/
theorem delete_undoes_ingest {deletion : Deletion} (h : Reachable s)
    (hi : ingest settings about stream access s = (.ok report, t))
    (hd : deleteRun report.run access' t = (.ok deletion, u)) :
    s.SameRows u ∧
      deletion.symbolsPruned =
        ((stream.records.filterMap Element.monikerName?).filter fun name =>
          (s.symbolNamed? name.1 name.2).isNone).dedup.length := by
  have hrun := (ingest_ok_cases hi).1
  obtain ⟨-, rfl, rfl⟩ := deleteRun_store hd
  rw [hrun]
  exact ⟨sameRows_of_removed h.scoped h.catalogued hi,
    orphanCount_removed h.scoped h.catalogued hi⟩

end Undo

/-- The sample leaves no trace in a store that was empty, and its one name goes with it. -/
theorem delete_undoes_sample :
    Store.empty.SameRows (deleteRun 1 {} sampleStore).2 ∧
      (Store.empty.newNames sampleDump.monikerNames).length = 1 := by
  have hd : deleteRun sampleReport.run {} sampleStore =
      (.ok ⟨1, 1⟩, (deleteRun 1 {} sampleStore).2) := by decide +kernel
  obtain ⟨hrows, hcount⟩ := delete_undoes_ingest .empty ingest_sample hd
  exact ⟨hrows, hcount.symm⟩

end SymbolAtlas
