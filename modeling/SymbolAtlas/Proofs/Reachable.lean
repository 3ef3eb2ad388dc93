import SymbolAtlas.Proofs.Atomicity
import SymbolAtlas.Proofs.Derived
import SymbolAtlas.Proofs.Grounded
import SymbolAtlas.Proofs.Removed

/-!
The stores that operations lead to, and what holds in all of them.
-/

namespace SymbolAtlas

inductive Operation where
  | ingest (settings : IngestSettings) (about : RunMeta) (stream : ByteStream)
  | derive (run : Int)
  | rebuild (run : Int)
  | delete (run : Int)

namespace Operation

/-- The store that an operation leaves, whether it succeeds or not. -/
def after (access : Access) (s : Store) : Operation → Store
  | ingest settings about stream => (SymbolAtlas.ingest settings about stream access s).2
  | derive run => (SymbolAtlas.derive run access s).2
  | rebuild run => (SymbolAtlas.rebuild run access s).2
  | delete run => (deleteRun run access s).2

/-- The run that an operation is about; an ingest makes its own. -/
def target? : Operation → Option Int
  | ingest _ _ _ => none
  | derive run => some run
  | rebuild run => some run
  | delete run => some run

end Operation

/-- The store with a dump in it, as a new run. -/
def Store.withDump (s : Store) (about : RunMeta) (createdAt : Int) (stream : ByteStream) : Store :=
  (stream.lines.foldl Stage.line ⟨.start (s.runs.last + 1), s.withRun about createdAt⟩).store

/-- What an operation makes of a store if it changes it at all. -/
inductive Operation.Makes (s : Store) : Operation → Store → Prop where
  | stored (settings : IngestSettings) (about : RunMeta) (stream : ByteStream) (createdAt : Int) :
    Makes s (.ingest settings about stream) (s.withDump about createdAt stream)
  | ingested (settings : IngestSettings) (about : RunMeta) (stream : ByteStream) (createdAt : Int) :
    Makes s (.ingest settings about stream)
      ((s.withDump about createdAt stream).derived (s.runs.last + 1))
  | derived (run : Int) : Makes s (.derive run) (s.derived run)
  | rebuilt (run : Int) : Makes s (.rebuild run) ((s.withoutOccurrences run).derived run)
  | deleted (run : Int) : Makes s (.delete run) (s.withoutRun run).pruned

variable {s t : Store}

theorem derivation_cases (access : Access) (s : Store) (anew : Bool) (run : Int) :
    (∃ e, derivation anew run access s = (.error e, s)) ∨
      ∃ counts, derivation anew run access s =
        (.ok counts, (if anew then s.withoutOccurrences run else s).derived run) := by
  cases h : derivation anew run access s with
  | mk result after =>
    cases result with
    | error e =>
      have hs := derivation_allOrNothing anew run access s e (by rw [h])
      rw [h] at hs
      exact .inl ⟨e, Prod.ext rfl hs⟩
    | ok counts => exact .inr ⟨counts, by rw [derivation_store h]⟩

theorem ingest_ok_derivation {access : Access} {settings : IngestSettings} {about : RunMeta}
    {stream : ByteStream} {report : Report}
    (h : ingest settings about stream access s = (.ok report, t)) :
    report.run = s.runs.last + 1 ∧
      ∃ createdAt, report.derivation = none ∧ t = s.withDump about createdAt stream ∨
        (∃ counts, report.derivation = some counts) ∧
          t = (s.withDump about createdAt stream).derived (s.runs.last + 1) := by
  cases hg : ingestGraph about stream access s with
  | mk result mid =>
    cases result with
    | error e =>
      have he : (ingest settings about stream access s).1 = .error e :=
        ingest_error_iff.mpr (congrArg Prod.fst hg)
      simp [h] at he
    | ok stored =>
      obtain ⟨-, p, hp, -, hs⟩ := ingestGraph_stage hg
      have hd : s.withDump about (about.createdAt.getD access.clock) stream = mid := by
        unfold Store.withDump
        rw [hp, hs]
      obtain ⟨hrun, hnone, -⟩ := closing_report_awaits hg
      rw [ingest_of_graph hg] at h
      rw [← hrun]
      split at h
      next =>
        split at h
        next counts after hder =>
          cases h
          have ha := derivation_store hder
          exact ⟨rfl, _, .inr ⟨⟨counts, rfl⟩, hd ▸ ha.symm⟩⟩
        next cause after hder =>
          cases h
          have ha := derivation_allOrNothing false stored.run access mid cause (by rw [hder])
          rw [hder] at ha
          exact ⟨rfl, _, .inl ⟨hnone, hd ▸ ha⟩⟩
      next =>
        cases h
        exact ⟨rfl, _, .inl ⟨hnone, hd.symm⟩⟩

theorem ingest_ok_cases {access : Access} {settings : IngestSettings} {about : RunMeta}
    {stream : ByteStream} {report : Report}
    (h : ingest settings about stream access s = (.ok report, t)) :
    report.run = s.runs.last + 1 ∧
      ∃ createdAt, t = s.withDump about createdAt stream ∨
        t = (s.withDump about createdAt stream).derived (s.runs.last + 1) := by
  obtain ⟨hrun, createdAt, hd⟩ := ingest_ok_derivation h
  exact ⟨hrun, createdAt, hd.imp And.right And.right⟩

theorem ingest_cases (access : Access) (s : Store) (settings : IngestSettings) (about : RunMeta)
    (stream : ByteStream) :
    (ingest settings about stream access s).2 = s ∨
      ∃ createdAt, (ingest settings about stream access s).2 = s.withDump about createdAt stream ∨
        (ingest settings about stream access s).2 =
          (s.withDump about createdAt stream).derived (s.runs.last + 1) := by
  cases h : ingest settings about stream access s with
  | mk result after =>
    cases result with
    | error e =>
      have hs := ingest_allOrNothing settings about stream access s e (by rw [h])
      rw [h] at hs
      exact .inl hs
    | ok report => exact .inr (ingest_ok_cases h).2

/-- An operation changes nothing, or makes of the store what it is meant to make. -/
theorem Operation.after_cases (op : Operation) (access : Access) (s : Store) :
    op.after access s = s ∨ op.Makes s (op.after access s) := by
  cases op with
  | ingest settings about stream =>
    simp only [after]
    rcases ingest_cases access s settings about stream with h | ⟨createdAt, h | h⟩
    · exact .inl h
    · rw [h]
      exact .inr (.stored settings about stream createdAt)
    · rw [h]
      exact .inr (.ingested settings about stream createdAt)
  | derive run =>
    simp only [after, SymbolAtlas.derive, Action.mapError_store]
    rcases derivation_cases access s false run with ⟨e, h⟩ | ⟨counts, h⟩
    · rw [h]
      exact .inl rfl
    · rw [h]
      exact .inr (.derived run)
  | rebuild run =>
    simp only [after, SymbolAtlas.rebuild, Action.mapError_store]
    rcases derivation_cases access s true run with ⟨e, h⟩ | ⟨counts, h⟩
    · rw [h]
      exact .inl rfl
    · rw [h]
      exact .inr (.rebuilt run)
  | delete run =>
    simp only [after]
    cases h : deleteRun run access s with
    | mk result after =>
      cases result with
      | error e =>
        have hs := deleteRun_allOrNothing run access s e (by rw [h])
        rw [h] at hs
        exact .inl hs
      | ok deletion =>
        obtain ⟨-, -, rfl⟩ := deleteRun_store h
        exact .inr (.deleted run)

/-- The stores that operations lead to from an empty one, on whatever terms each is done. -/
inductive Reachable : Store → Prop where
  | empty : Reachable .empty
  | after {s : Store} (op : Operation) (access : Access) : Reachable s →
    Reachable (op.after access s)

theorem scoped_empty : Store.empty.Scoped := by
  constructor
  case ordered => constructor <;> exact .empty
  all_goals simp [Store.empty]

theorem grounded_withDump (h : s.Scoped) (about : RunMeta) (createdAt : Int)
    (stream : ByteStream) :
    (stream.lines.foldl Stage.line
      ⟨.start (s.runs.last + 1), s.withRun about createdAt⟩).Grounded (s.withRun about createdAt) :=
  (Stage.grounded_kept _).lines stream.lines (Stage.grounded_start h about createdAt)

theorem run_lines (s : Store) (about : RunMeta) (createdAt : Int) (lines : List (List UInt8)) :
    (lines.foldl Stage.line
      ⟨.start (s.runs.last + 1), s.withRun about createdAt⟩).run = s.runs.last + 1 := by
  have hstart : Stage.Awaits (s.runs.last + 1)
      ⟨.start (s.runs.last + 1), s.withRun about createdAt⟩ := ⟨rfl, rfl, rfl, rfl⟩
  exact ((Stage.awaits_kept _).lines lines hstart).run

theorem run_withDump (s : Store) (about : RunMeta) (createdAt : Int) (stream : ByteStream) :
    (stream.lines.foldl Stage.line
      ⟨.start (s.runs.last + 1), s.withRun about createdAt⟩).run = s.runs.last + 1 :=
  run_lines s about createdAt stream.lines

theorem writes_withDump (h : s.Scoped) (about : RunMeta) (createdAt : Int) (stream : ByteStream) :
    Relation.ReflTransGen (Store.Write (s.runs.last + 1)) (s.withRun about createdAt)
      (s.withDump about createdAt stream) := by
  have path := (grounded_withDump h about createdAt stream).path
  rwa [run_withDump] at path

theorem scoped_withDump (h : s.Scoped) (about : RunMeta) (createdAt : Int) (stream : ByteStream) :
    (s.withDump about createdAt stream).Scoped :=
  (grounded_withDump h about createdAt stream).keeps

theorem Operation.Makes.scoped {op : Operation} (m : op.Makes s t) (h : s.Scoped) : t.Scoped := by
  cases m with
  | stored settings about stream createdAt => exact scoped_withDump h about createdAt stream
  | ingested settings about stream createdAt =>
    exact Store.scoped_derived (scoped_withDump h about createdAt stream) _
  | derived run => exact Store.scoped_derived h run
  | rebuilt run =>
    exact Store.scoped_derived ((Store.extends_withoutOccurrences h run).scoped h) run
  | deleted run => exact Store.scoped_pruned (Store.scoped_withoutRun h run)

theorem scoped_after (h : s.Scoped) (op : Operation) (access : Access) :
    (op.after access s).Scoped := by
  rcases op.after_cases access s with he | hm
  · rwa [he]
  · exact hm.scoped h

theorem Reachable.scoped (h : Reachable s) : s.Scoped := by
  induction h with
  | empty => exact scoped_empty
  | after op access _ ih => exact scoped_after ih op access

theorem Reachable.ingested {settings : IngestSettings} {about : RunMeta} {stream : ByteStream}
    {access : Access} {report : Report} (h : Reachable s)
    (hi : ingest settings about stream access s = (.ok report, t)) : Reachable t := by
  have hafter : (Operation.ingest settings about stream).after access s = t :=
    congrArg Prod.snd hi
  rw [← hafter]
  exact .after _ access h

theorem withDump_keeps {motive : Store → Prop} (h : s.Scoped) (about : RunMeta) (createdAt : Int)
    (stream : ByteStream) (start : motive (s.withRun about createdAt))
    (step : ∀ {a b : Store}, a.Scoped → Store.Write (s.runs.last + 1) a b → motive a → motive b) :
    motive (s.withDump about createdAt stream) := by
  have hstart := Stage.grounded_start h about createdAt
  have path := writes_withDump h about createdAt stream
  exact Store.writes_keep hstart.keeps hstart.live start step path

/-- What holds of an empty store and is kept by all that operations make holds of every store that
they lead to. -/
theorem Reachable.keeps {motive : Store → Prop} (empty : motive .empty)
    (step : ∀ {s t : Store} {op : Operation}, s.Scoped → op.Makes s t → motive s → motive t)
    (h : Reachable s) : motive s := by
  induction h with
  | empty => exact empty
  | after op access hr ih =>
    rcases op.after_cases access _ with he | hm
    · rwa [he]
    · exact step hr.scoped hm ih

/-- In every store that operations lead to, whatever a row names is there and belongs to the run
of the row, and every moniker has one symbol. -/
theorem reachable_rows_keep_to_runs {s : Store} (h : Reachable s) :
    (∀ r ∈ s.ranges.rows, ∃ d, s.documents.get? r.2.document = some d ∧
      ∀ k, r.2.resultSet = some k → ∃ a, s.resultSets.get? k = some a ∧ a.run = d.run) ∧
    (∀ r ∈ s.resultSets.rows,
      (∀ k, r.2.hover = some k → ∃ a, s.hovers.get? k = some a ∧ a.run = r.2.run) ∧
      ∀ k, r.2.moniker = some k → ∃ a, s.monikers.get? k = some a ∧ a.run = r.2.run) ∧
    (∀ r ∈ s.monikers.rows,
      (∀ k, r.2.package = some k → ∃ a, s.packages.get? k = some a ∧ a.run = r.2.run) ∧
      ∃ symbol, s.links.filter (fun l => l.moniker == r.1) = [⟨r.1, symbol⟩]) ∧
    (∀ r ∈ s.definitionItems.rows, ∃ range d, s.ranges.get? r.2.range = some range ∧
      range.document = r.2.document ∧ s.documents.get? r.2.document = some d ∧
      d.run = r.2.run) ∧
    (∀ r ∈ s.referenceItems.rows, ∃ range d, s.ranges.get? r.2.range = some range ∧
      range.document = r.2.document ∧ s.documents.get? r.2.document = some d ∧
      d.run = r.2.run) ∧
    ∀ o ∈ s.occurrences,
      (∃ range d, s.ranges.get? o.range = some range ∧ range.document = o.document ∧
        s.documents.get? o.document = some d ∧ d.run = o.run) ∧
      ∃ l ∈ s.links, l.symbol = o.symbol ∧
        ∃ m, s.monikers.get? l.moniker = some m ∧ m.run = o.run := by
  have hs := h.scoped
  refine ⟨fun r hr => ?_, fun r hr => ⟨fun k hk => ?_, fun k hk => ?_⟩,
    fun r hr => ⟨fun k hk => ?_, ?_⟩, fun r hr => (hs.definitionItems r hr).rows,
    fun r hr => (hs.referenceItems r hr).rows, fun o ho => ⟨(hs.occurrences o ho).1.rows, ?_⟩⟩
  · obtain ⟨run, hd, hk⟩ := hs.ranges r hr
    obtain ⟨d, hg, rfl⟩ := Table.view_eq_some_iff.mp hd
    exact ⟨d, hg, fun k he => Table.view_eq_some_iff.mp (hk k he)⟩
  · exact Table.view_eq_some_iff.mp (hs.hoverOf r hr k hk)
  · exact Table.view_eq_some_iff.mp (hs.monikerOf r hr k hk)
  · exact Table.view_eq_some_iff.mp (hs.packageOf r hr k hk)
  · obtain ⟨⟨moniker, symbol⟩, hl⟩ := List.length_eq_one_iff.mp (hs.monikerLink r hr)
    have hm : (⟨moniker, symbol⟩ : MonikerLink) ∈ s.links.filter fun l => l.moniker == r.1 := by
      rw [hl]
      exact List.mem_singleton_self _
    cases beq_iff_eq.mp (List.mem_filter.mp hm).2
    exact ⟨symbol, hl⟩
  · obtain ⟨l, hl, he, hm⟩ := (hs.occurrences o ho).2
    exact ⟨l, hl, he, Table.view_eq_some_iff.mp hm⟩

/-- A function of one document, with a moniker, a text and its own definition. -/
def sampleDump : ByteStream where
  content := [
    "[\"vertex\",\"document\",1,\"a\",null]",
    "[\"vertex\",\"range\",2,[0,4],[0,7]]",
    "[\"vertex\",\"resultSet\",3]",
    "[\"vertex\",\"moniker\",4,\"npm\",\"a:f\",null,null]",
    "[\"vertex\",\"hoverResult\",5,\"f\"]",
    "[\"edge\",\"contains\",1,[2]]",
    "[\"edge\",\"next\",2,3]",
    "[\"edge\",\"moniker\",3,4]",
    "[\"edge\",\"textDocument/hover\",2,5]",
    "[\"edge\",\"textDocument/definition\",3,6]",
    "[\"edge\",\"item\",6,[2],null,null]"].flatMap fun line => line.toUTF8.toList ++ [10]

def sampleReport : Report where
  run := 1
  lines := 11
  vertices := 5
  edges := 6
  derivation := some ⟨1, 0, 0, 0⟩

def sampleStore : Store where
  runs := ⟨1, [(1, { repo := none, commit := none, createdAt := 0 })]⟩
  documents := ⟨1, [(1, ⟨1, "a", none⟩)]⟩
  hovers := ⟨1, [(1, ⟨1, "f"⟩)]⟩
  monikers := ⟨1, [(1, ⟨1, "npm", "a:f", none, none⟩)]⟩
  symbols := ⟨1, [(1, ⟨"npm", "a:f", "f", none⟩)]⟩
  links := [⟨1, 1⟩]
  resultSets := ⟨1, [(1, { run := 1, definitions := some 6, hover := some 1, moniker := some 1 })]⟩
  ranges := ⟨1, [(1, ⟨1, .ofCoords 0 4 0 7, some 1⟩)]⟩
  definitionItems := ⟨1, [(1, ⟨1, 6, 1, 1⟩)]⟩
  occurrences := [⟨1, 1, 1, 1, .definition⟩]
  searchIndex := [⟨1, "f", "a:f"⟩]

theorem ingest_sample : ingest {} {} sampleDump {} .empty = (.ok sampleReport, sampleStore) := by
  decide +kernel

theorem reachable_sample : Reachable sampleStore := Reachable.empty.ingested ingest_sample

/-- The occurrence in the sample is of a symbol that a moniker of the same run is linked to. -/
theorem sample_occurrence_linked :
    ⟨1, 1, 1, 1, .definition⟩ ∈ sampleStore.occurrences ∧
      ∃ l ∈ sampleStore.links, l.symbol = 1 ∧
        ∃ m, sampleStore.monikers.get? l.moniker = some m ∧ m.run = 1 := by
  have ho : ⟨1, 1, 1, 1, .definition⟩ ∈ sampleStore.occurrences := List.mem_cons_self
  obtain ⟨-, -, -, -, -, linked⟩ := reachable_rows_keep_to_runs reachable_sample
  exact ⟨ho, (linked _ ho).2⟩

end SymbolAtlas
