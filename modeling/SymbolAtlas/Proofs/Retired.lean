import SymbolAtlas.Proofs.Catalog
import SymbolAtlas.Proofs.History

namespace SymbolAtlas

/-- What everything that operations make keeps holds on in every later store. -/
theorem History.keeps {motive : Store → Prop}
    (step : ∀ {s t : Store} {op : Operation}, s.Scoped → op.Makes s t → motive s → motive t)
    {earlier : History} (h : motive earlier.store) (later : History) :
    motive (store (later ++ earlier)) := by
  induction later with
  | nil => exact h
  | cons latest between ih =>
    have hs := (reachable (between ++ earlier)).scoped
    rcases latest.1.after_cases latest.2 (store (between ++ earlier)) with he | hm
    · rw [List.cons_append, store, he]
      exact ih
    · exact step hs hm ih

namespace Store

variable {s t : Store} {run id : Int}

/-- The number has been given out to a run that is not there any more. -/
structure Retired (s : Store) (run : Int) : Prop where
  givenOut : run ≤ s.runs.last
  absent : s.runs.has run ≠ true

theorem Retired.kept {op : Operation} (r : s.Retired run) (h : s.Scoped) (m : op.Makes s t) :
    t.Retired run := by
  obtain ⟨hlast, hnew⟩ := m.runs h
  refine ⟨Int.le_trans r.givenOut hlast, fun hr => ?_⟩
  rcases hnew run hr with ho | ⟨-, he⟩
  · exact r.absent ho
  · have := r.givenOut
    omega

theorem retired_deleted (h : s.Scoped) (hr : s.runs.has run = true) :
    (s.withoutRun run).pruned.Retired run := by
  obtain ⟨a, ha⟩ := Table.has_iff.mp hr
  exact ⟨h.ordered.runs.le_last ha, fun hn => ((has_run_withoutRun h.ordered).mp hn).2 rfl⟩

/-- The number has been given out to a symbol of the given name and stands for no other. -/
structure Denotes (s : Store) (id : Int) (name : String × String) : Prop where
  givenOut : id ≤ s.symbols.last
  name : ∀ x, s.symbols.get? id = some x → x.name = name

variable {name : String × String}

theorem Denotes.of_symbols (d : s.Denotes id name) (hlast : s.symbols.last ≤ t.symbols.last)
    (hget : ∀ x, t.symbols.get? id = some x → s.symbols.get? id = some x) : t.Denotes id name :=
  ⟨Int.le_trans d.givenOut hlast, fun x hx => d.name x (hget x hx)⟩

theorem Denotes.withMoniker (d : s.Denotes id name) (run : Int) (scheme identifier : String)
    (kind : Option String) (package : Option Int) :
    (s.withMoniker run scheme identifier kind package).Denotes id name := by
  have hle := d.givenOut
  cases hs : s.symbolNamed? scheme identifier with
  | some found =>
    have he : (s.withMoniker run scheme identifier kind package).symbols = s.symbols.skip := by
      rw [symbols_withMoniker, hs]
    refine d.of_symbols ?_ fun x hx => ?_
    · rw [he]
      exact Int.le_of_lt (Int.lt_succ _)
    · rwa [he, Table.get?_skip] at hx
  | none =>
    -- The number of the new symbol is above the one that is asked about.
    have he : (s.withMoniker run scheme identifier kind package).symbols =
        s.symbols.insert ⟨scheme, identifier, qualifiedName identifier, kind⟩ := by
      rw [symbols_withMoniker, hs]
    refine d.of_symbols ?_ fun x hx => ?_
    · rw [he, Table.last_insert]
      omega
    · rw [he, Table.get?_insert, if_neg (by omega), Option.or_none] at hx
      exact hx

theorem Write.denotes (w : Write run s t) (d : s.Denotes id name) : t.Denotes id name := by
  cases w with
  | moniker scheme identifier kind _ => exact d.withMoniker run scheme identifier kind _
  | _ => exact d.of_symbols (Int.le_refl _) fun _ hx => hx

theorem Denotes.withDump (d : s.Denotes id name) (h : s.Scoped) (about : RunMeta)
    (createdAt : Int) (stream : ByteStream) :
    (s.withDump about createdAt stream).Denotes id name :=
  withDump_keeps (motive := fun t => t.Denotes id name) h about createdAt stream
    (d.of_symbols (Int.le_refl _) fun _ hx => hx) fun _ w => w.denotes

theorem Denotes.kept {op : Operation} (d : s.Denotes id name) (h : s.Scoped)
    (m : op.Makes s t) : t.Denotes id name := by
  cases m with
  | stored settings about stream createdAt => exact d.withDump h about createdAt stream
  | ingested settings about stream createdAt =>
    rw [derived_eq]
    exact (d.withDump h about createdAt stream).of_symbols (Int.le_refl _) fun _ hx => hx
  | derived run =>
    rw [derived_eq]
    exact d.of_symbols (Int.le_refl _) fun _ hx => hx
  | rebuilt run =>
    rw [derived_eq]
    exact d.of_symbols (Int.le_refl _) fun _ hx => hx
  | deleted run =>
    refine d.of_symbols (Int.le_refl _) fun x hx => ?_
    rw [get?_symbols_pruned (ordered_withoutRun h.ordered run)] at hx
    split at hx
    next => exact hx
    next => cases hx

/-- Nothing is left of a run: every question about it has an empty answer, it cannot be deleted,
and there is nothing to derive for it. -/
structure NothingLeft (s : Store) (run : Int) : Prop where
  record : s.runs.get? run = none
  definitionsAt : ∀ uri p, s.definitionsAt ⟨run, uri, p⟩ = []
  referencesAt : ∀ uri p includeDefinitions, s.referencesAt ⟨run, uri, p⟩ includeDefinitions = []
  typeDefinitionsAt : ∀ uri p, s.typeDefinitionsAt ⟨run, uri, p⟩ = []
  implementationsAt : ∀ uri p, s.implementationsAt ⟨run, uri, p⟩ = []
  hoverAt? : ∀ uri p, s.hoverAt? ⟨run, uri, p⟩ = none
  monikerAt? : ∀ uri p, s.monikerAt? ⟨run, uri, p⟩ = none
  occurrencesOf : ∀ symbol role, s.occurrencesOf run symbol role = []
  stats : s.stats run = ⟨0, 0, 0, 0, 0, 0, 0, 0, 0⟩
  delete : ∀ access, access.beginRefusal? false = none → access.writeRefusal? = none →
    deleteRun run access s = (.error (.notFound "index run" run), s)
  deleted : ∀ access deletion, (deleteRun run access s).1 ≠ .ok deletion
  derive : ∀ access, access.beginRefusal? true = none → access.commitFails s = none →
    SymbolAtlas.derive run access s = (.ok ⟨0, 0, 0, 0⟩, s)
  rebuild : ∀ access, access.beginRefusal? true = none → access.commitFails s = none →
    SymbolAtlas.rebuild run access s = (.ok ⟨0, 0, 0, 0⟩, s)

theorem count_absent {α : Type} {table : Table α} {p : α → Bool} (hn : s.runs.has run ≠ true)
    (hp : ∀ r ∈ table.rows, p r.2 = true → s.runs.has run = true) : table.count p = 0 :=
  List.countP_eq_zero.mpr fun r hr hc => hn (hp r hr hc)

section NothingLeft

variable (h : s.Scoped) (hn : s.runs.has run ≠ true)
include h hn

theorem innermost?_absent (uri : String) (p : Position) : s.innermost? run uri p = none := by
  cases hi : s.innermost? run uri p with
  | none => rfl
  | some r =>
    obtain ⟨d, hd, he⟩ := Table.view_eq_some_iff.mp (mem_covering (innermost?_mem hi)).2
    exact absurd (he ▸ h.documents _ (Table.mem_of_get? hd)) hn

theorem resultSetAt?_absent (uri : String) (p : Position) :
    s.resultSetAt? ⟨run, uri, p⟩ = none := by
  simp [resultSetAt?, innermost?_absent h hn]

theorem bucketAt?_absent (uri : String) (p : Position) (kind : BucketKind) :
    s.bucketAt? ⟨run, uri, p⟩ kind = none := by
  simp [bucketAt?, resultSetAt?_absent h hn]

theorem occurrences_absent {o : Occurrence} (ho : o ∈ s.occurrences) : o.run ≠ run :=
  fun he => hn (he ▸ (h.occurrences o ho).1.live h)

theorem occurrencesOf_absent (symbol : Int) (role : Option Role) :
    s.occurrencesOf run symbol role = [] := by
  have hnone : (s.occurrences.filterMap fun o =>
      if o.run = run ∧ o.symbol = symbol ∧ role.all (· == o.role) then
        (s.location? o.document o.range).map fun l =>
          (⟨o.symbol, o.role, l⟩ : OccurrenceDetails)
      else none) = [] :=
    List.filterMap_eq_nil_iff.mpr fun o ho =>
      if_neg fun hp => occurrences_absent h hn ho hp.1
  unfold occurrencesOf
  rw [hnone, List.mergeSort_nil]

theorem found_absent (pass : Pass) : s.found run pass = [] := by
  refine List.eq_nil_iff_forall_not_mem.mpr fun o ho => ?_
  obtain ⟨he, hi, -⟩ := found_inRun h ho
  exact hn (he ▸ hi.live h)

theorem stats_absent : s.stats run = ⟨0, 0, 0, 0, 0, 0, 0, 0, 0⟩ := by
  have hoccurrences : s.occurrenceTotal run = 0 :=
    List.countP_eq_zero.mpr fun o ho he => occurrences_absent h hn ho (beq_iff_eq.mp he)
  have hranges : s.ranges.count (fun r => s.documents.holds r.document fun d => d.run == run) =
      0 := by
    refine count_absent hn fun r _ hc => ?_
    obtain ⟨d, hd, he⟩ := Table.holds_iff.mp hc
    exact beq_iff_eq.mp he ▸ h.documents _ (Table.mem_of_get? hd)
  have hdocuments : s.documents.count (fun d => d.run == run) = 0 :=
    count_absent hn fun r hr he => beq_iff_eq.mp he ▸ h.documents r hr
  have hresultSets : s.resultSets.count (fun x => x.run == run) = 0 :=
    count_absent hn fun r hr he => beq_iff_eq.mp he ▸ h.resultSets r hr
  have hmonikers : s.monikers.count (fun m => m.run == run) = 0 :=
    count_absent hn fun r hr he => beq_iff_eq.mp he ▸ h.monikers r hr
  have hhovers : s.hovers.count (fun x => x.run == run) = 0 :=
    count_absent hn fun r hr he => beq_iff_eq.mp he ▸ h.hovers r hr
  have hpackages : s.packages.count (fun p => p.run == run) = 0 :=
    count_absent hn fun r hr he => beq_iff_eq.mp he ▸ h.packages r hr
  have hdefinitions : s.definitionItems.count (fun i => i.run == run) = 0 :=
    count_absent hn fun r hr he => beq_iff_eq.mp he ▸ (h.definitionItems r hr).live h
  have hreferences : s.referenceItems.count (fun i => i.run == run) = 0 :=
    count_absent hn fun r hr he => beq_iff_eq.mp he ▸ (h.referenceItems r hr).live h
  unfold stats
  rw [hdocuments, hranges, hresultSets, hmonikers, hhovers, hpackages, hoccurrences,
    hdefinitions, hreferences]

theorem withPass_absent (pass : Pass) : s.withPass run pass = s := by
  unfold withPass
  rw [found_absent h hn]
  rfl

theorem derivePass_absent {access : Access} (ha : access.writeRefusal? = none) (pass : Pass) :
    derivePass run pass access s = (.ok 0, s) := by
  refine derivePass_ok_iff.mpr ⟨?_, ?_, withPass_absent h hn pass⟩
  · rw [found_absent h hn]
    exact ⟨ha, rfl⟩
  · rw [withPass_absent h hn]
    omega

theorem fillOccurrences_absent {access : Access} (ha : access.writeRefusal? = none) :
    fillOccurrences run access s = (.ok ⟨0, 0, 0, 0⟩, s) := by
  have hp := fun pass => derivePass_absent h hn ha pass
  exact Action.bind_ok_iff.mpr ⟨0, s, hp _, Action.bind_ok_iff.mpr ⟨0, s, hp _,
    Action.bind_ok_iff.mpr ⟨0, s, hp _, Action.bind_ok_iff.mpr ⟨0, s, hp _, rfl⟩⟩⟩⟩

theorem clearOccurrences_absent {access : Access} (ha : access.writeRefusal? = none) :
    clearOccurrences run access s = (.ok (), s) := by
  have hany : (s.occurrences.any fun o => o.run == run) = false :=
    List.any_eq_false.mpr fun o ho he => occurrences_absent h hn ho (beq_iff_eq.mp he)
  have hkept : s.withoutOccurrences run = s := by
    unfold withoutOccurrences
    rw [List.filter_eq_self.mpr fun o ho => bne_iff_ne.mpr (occurrences_absent h hn ho)]
  refine clearOccurrences_ok_iff.mpr ⟨?_, hkept⟩
  rw [hany]
  exact ⟨ha, rfl⟩

theorem derivation_absent {access : Access} (anew : Bool)
    (hb : access.beginRefusal? true = none) (hc : access.commitFails s = none) :
    derivation anew run access s = (.ok ⟨0, 0, 0, 0⟩, s) := by
  have ha : access.writeRefusal? = none := by
    unfold Access.beginRefusal? at hb
    split at hb
    next => cases hb
    next => exact hb
  let within : Access := { access with inTransaction := true }
  have hw : within.writeRefusal? = none := ha
  have hfill := fillOccurrences_absent h hn hw
  refine Action.transaction_ok_iff.mpr ⟨hb, ?_, hc⟩
  cases anew with
  | false => exact hfill
  | true =>
    exact Action.bind_ok_iff.mpr ⟨(), s, clearOccurrences_absent h hn hw, hfill⟩

end NothingLeft

theorem deleteRun_absent {access : Access} (hn : s.runs.has run ≠ true)
    (hb : access.beginRefusal? false = none) (ha : access.writeRefusal? = none) :
    deleteRun run access s = (.error (.notFound "index run" run), s) := by
  have hremove : removeRun run { access with inTransaction := true } s = (.ok false, s) := by
    have hf : s.runs.has run = false := Bool.not_eq_true _ ▸ hn
    refine removeRun_ok_iff.mpr ⟨?_, hf, by simp [hf]⟩
    rw [hf]
    exact ⟨ha, rfl⟩
  have he : (deleteRun run access s).1 = .error (.notFound "index run" run) := by
    refine Action.transaction_error_iff.mpr (.inr ⟨hb, .inl ?_⟩)
    exact Action.bind_error_iff.mpr (.inr ⟨false, s, hremove, rfl⟩)
  exact Prod.ext he (deleteRun_allOrNothing run access s _ he)

theorem nothingLeft_of_absent (h : s.Scoped) (hn : s.runs.has run ≠ true) :
    s.NothingLeft run where
  record := by simpa [Table.has] using hn
  definitionsAt uri p := by simp [Store.definitionsAt, bucketAt?_absent h hn]
  referencesAt uri p includeDefinitions := by simp [Store.referencesAt, bucketAt?_absent h hn]
  typeDefinitionsAt uri p := by
    simp [Store.typeDefinitionsAt, targetsAt, bucketAt?_absent h hn]
  implementationsAt uri p := by
    simp [Store.implementationsAt, targetsAt, bucketAt?_absent h hn]
  hoverAt? uri p := by simp [Store.hoverAt?, resultSetAt?_absent h hn]
  monikerAt? uri p := by simp [Store.monikerAt?, resultSetAt?_absent h hn]
  occurrencesOf := occurrencesOf_absent h hn
  stats := stats_absent h hn
  delete _ hb ha := deleteRun_absent hn hb ha
  deleted _ _ hd := hn (deleteRun_store (Prod.ext hd rfl)).1
  derive _ hb hc := Action.mapError_ok_iff.mpr (derivation_absent h hn false hb hc)
  rebuild _ hb hc := Action.mapError_ok_iff.mpr (derivation_absent h hn true hb hc)

end Store

theorem ingest_ok_last {access : Access} {s t : Store} {settings : IngestSettings}
    {about : RunMeta} {stream : ByteStream} {report : Report} (h : s.Scoped)
    (hi : ingest settings about stream access s = (.ok report, t)) :
    report.run = s.runs.last + 1 ∧ t.runs.last = report.run := by
  obtain ⟨hrun, createdAt, ht⟩ := ingest_ok_cases hi
  have hlast := (Store.runs_withDump h about createdAt stream).1
  refine ⟨hrun, ?_⟩
  rcases ht with rfl | rfl
  · rw [hlast, hrun]
  · rw [Store.derived_eq, hrun]
    exact hlast

/-- Numbers are given out once.  Every ingest that succeeds gets a number above all those that
ingests got before it, and the number of a symbol never stands for another name.  So once a run is
deleted, nothing is left of it in any later store. -/
theorem numbers_given_out_once (earlier : History) :
    (∀ settings about stream access report,
      (ingest settings about stream access earlier.store).1 = .ok report →
      ∀ (between : History) settings' about' stream' access' report',
        (ingest settings' about' stream' access'
          (History.store (between ++ (.ingest settings about stream, access) :: earlier))).1 =
            .ok report' →
        report.run < report'.run) ∧
    (∀ id x, earlier.store.symbols.get? id = some x →
      ∀ (later : History) y, (History.store (later ++ earlier)).symbols.get? id = some y →
        y.scheme = x.scheme ∧ y.identifier = x.identifier) ∧
    ∀ run access deletion, (deleteRun run access earlier.store).1 = .ok deletion →
      ∀ later : History,
        (History.store (later ++ (.delete run, access) :: earlier)).NothingLeft run := by
  have hs := earlier.reachable.scoped
  refine ⟨?_, ?_, ?_⟩
  · intro settings about stream access report hi between
      settings' about' stream' access' report' hi'
    obtain ⟨-, hlast⟩ := ingest_ok_last hs (Prod.ext hi rfl)
    have hreached : report.run ≤
        (History.store ((.ingest settings about stream, access) :: earlier)).runs.last :=
      Int.le_of_eq hlast.symm
    have hup := History.keeps (motive := fun t => report.run ≤ t.runs.last)
      (fun hs m hle => Int.le_trans hle (m.runs hs).1) hreached between
    have hnext := (ingest_ok_last (History.reachable _).scoped (Prod.ext hi' rfl)).1
    omega
  · intro id x hx later y hy
    have hd : earlier.store.Denotes id x.name :=
      ⟨hs.ordered.symbols.le_last hx, fun z hz => by rw [Option.some.inj (hz.symm.trans hx)]⟩
    have hlater := History.keeps (motive := fun t => t.Denotes id x.name)
      (fun hs m hd => hd.kept hs m) hd later
    have hname := hlater.name y hy
    exact ⟨congrArg Prod.fst hname, congrArg Prod.snd hname⟩
  · intro run access deletion hd later
    obtain ⟨hr, -, ht⟩ := deleteRun_store (Prod.ext hd rfl)
    have hretired : (History.store ((.delete run, access) :: earlier)).Retired run := by
      have hafter : (Operation.delete run).after access earlier.store =
          (earlier.store.withoutRun run).pruned := ht.symm
      rw [History.store, hafter]
      exact Store.retired_deleted hs hr
    have hlater := History.keeps (motive := fun t => t.Retired run)
      (fun hs m r => r.kept hs m) hretired later
    exact Store.nothingLeft_of_absent (History.reachable _).scoped hlater.absent

/-- The sample is deleted and comes again as another run; nothing is left of the first one. -/
theorem sample_retired :
    let history : History := [(.ingest {} {} sampleDump, {})]
    let again : Operation × Access := (.ingest {} {} sampleDump, {})
    (deleteRun 1 {} history.store).1 = .ok ⟨1, 1⟩ ∧
      (History.store ([again] ++ (.delete 1, {}) :: history)).runs.has 2 = true ∧
      (History.store ([again] ++ (.delete 1, {}) :: history)).NothingLeft 1 := by
  intro history again
  have hstore : history.store = sampleStore := Operation.after_ingest ingest_sample
  have hd : (deleteRun 1 {} history.store).1 = .ok ⟨1, 1⟩ := by
    rw [hstore]
    decide +kernel
  refine ⟨hd, ?_, (numbers_given_out_once history).2.2 1 {} ⟨1, 1⟩ hd [again]⟩
  decide +kernel

end SymbolAtlas
