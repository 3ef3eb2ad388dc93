import SymbolAtlas.Proofs.History

namespace SymbolAtlas

theorem Occurrence.run_of_samePlace {a b : Occurrence} (h : a.samePlace b = true) :
    a.run = b.run := by
  simp only [samePlace, Bool.and_eq_true, beq_iff_eq] at h
  exact h.1.1.1

theorem any_addOccurrence {there : List Occurrence} {o : Occurrence} {p : Occurrence → Bool}
    (h : there.any p = true ∨ p o = true ∧ ∀ q, p q = o.samePlace q) :
    (addOccurrence there o).any p = true := by
  unfold addOccurrence
  split
  next ht =>
    rcases h with h | ⟨-, hp⟩
    · exact h
    · rwa [show p = o.samePlace from funext hp]
  next =>
    rw [List.any_append, Bool.or_eq_true]
    rcases h with h | ⟨ho, -⟩
    · exact .inl h
    · exact .inr (by simp [ho])

theorem taken_foldl {found there : List Occurrence} {o : Occurrence}
    (h : there.any o.samePlace = true ∨ o ∈ found) :
    (found.foldl addOccurrence there).any o.samePlace = true := by
  induction found generalizing there with
  | nil => simpa using h
  | cons first rest ih =>
    rw [List.foldl_cons]
    apply ih
    rcases h with h | h
    · exact .inl (any_addOccurrence (.inl h))
    · rcases List.mem_cons.mp h with rfl | h
      · exact .inl (any_addOccurrence (.inr ⟨by simp [Occurrence.samePlace], fun _ => rfl⟩))
      · exact .inr h

theorem foldl_addOccurrence_of_taken {found there : List Occurrence}
    (h : ∀ o ∈ found, there.any o.samePlace = true) : found.foldl addOccurrence there = there := by
  induction found with
  | nil => rfl
  | cons first rest ih =>
    have hf : addOccurrence there first = there := if_pos (h first List.mem_cons_self)
    rw [List.foldl_cons, hf]
    exact ih fun o ho => h o (List.mem_cons_of_mem _ ho)

/-- What is added to a run depends only on what the run has. -/
theorem filter_foldl_addOccurrence {found there : List Occurrence} {run : Int}
    (h : ∀ o ∈ found, o.run = run) :
    (found.foldl addOccurrence there).filter (fun o => o.run == run) =
      found.foldl addOccurrence (there.filter fun o => o.run == run) := by
  induction found generalizing there with
  | nil => rfl
  | cons first rest ih =>
    have hr : first.run = run := h first List.mem_cons_self
    have hany : (there.filter fun o => o.run == run).any first.samePlace =
        there.any first.samePlace := by
      rw [List.any_filter]
      congr 1
      funext o
      cases hp : first.samePlace o with
      | false => simp
      | true => simp [← Occurrence.run_of_samePlace hp, hr]
    have hstep : (addOccurrence there first).filter (fun o => o.run == run) =
        addOccurrence (there.filter fun o => o.run == run) first := by
      unfold addOccurrence
      rw [hany]
      split
      next => rfl
      next => simp [hr]
    rw [List.foldl_cons, List.foldl_cons, ih fun o ho => h o (List.mem_cons_of_mem _ ho), hstep]

namespace Store

variable {s t : Store} {run : Int}

/-- The occurrences of a run. -/
def occurrencesIn (s : Store) (run : Int) : List Occurrence :=
  s.occurrences.filter fun o => o.run == run

/-- What a derivation finds in the rows of a run alone, if it has no occurrences yet. -/
def derivable (s : Store) (run : Int) : List Occurrence :=
  (fillOccurrences run {} { s.only run with occurrences := [] }).2.occurrences

/-- A run has the occurrences that a derivation finds in its rows. -/
def Filled (s : Store) (run : Int) : Prop := s.occurrencesIn run = s.derivable run

theorem foundIn_derived (s : Store) (run : Int) : (s.derived run).foundIn run = s.foundIn run := by
  rw [derived_eq]
  rfl

theorem foundIn_inRun (h : s.Scoped) {o : Occurrence} (ho : o ∈ s.foundIn run) : o.run = run := by
  simp only [foundIn, List.mem_append] at ho
  rcases ho with ((ho | ho) | ho) | ho
  all_goals exact (found_inRun h ho).1

theorem flatMap_portion {α β : Type} {rows : List α} {p : α → Bool} {f g : α → List β}
    (hn : ∀ r ∈ rows, p r = false → g r = []) (he : ∀ r ∈ rows, p r = true → f r = g r) :
    (rows.filter p).flatMap f = rows.flatMap g := by
  induction rows with
  | nil => rfl
  | cons r rest ih =>
    have hrest := ih (fun q hq => hn q (List.mem_cons_of_mem _ hq))
      fun q hq => he q (List.mem_cons_of_mem _ hq)
    cases hp : p r with
    | false =>
      rw [List.filter_cons_of_neg (by simp [hp]), List.flatMap_cons, hrest,
        hn r List.mem_cons_self hp, List.nil_append]
    | true =>
      rw [List.filter_cons_of_pos hp, List.flatMap_cons, List.flatMap_cons, hrest,
        he r List.mem_cons_self hp]

theorem symbolsOfItem_only (h : s.Scoped) (kind : BucketKind) {item : Item}
    (hi : item.run = run) : (s.only run).symbolsOfItem kind item = s.symbolsOfItem kind item := by
  refine filterMap_portion (fun r hr => by simp [hi, hr]) fun r hr he => ?_
  cases hm : r.2.moniker with
  | none => simp
  | some m =>
    have hrun := h.monikerOf r hr m hm
    rw [he] at hrun
    simp only [Option.bind_some, symbolOf?_only hrun]

theorem found_only (h : s.Scoped) (pass : Pass) :
    (s.only run).found run pass = s.found run pass := by
  cases pass with
  | definitions =>
    simp only [found, passItems, List.flatMap_map]
    refine flatMap_portion (fun r _ hr => ?_) fun r _ hr => ?_
    · simp [beq_eq_false_iff_ne.mp hr]
    · rw [symbolsOfItem_only h _ (beq_iff_eq.mp hr)]
  | _ =>
    simp only [found, passItems, List.flatMap_map]
    refine flatMap_portion (fun r _ hr => ?_) fun r _ hr => ?_
    · simp [beq_eq_false_iff_ne.mp hr]
    · rw [symbolsOfItem_only h _ (beq_iff_eq.mp hr)]

theorem foundIn_only (h : s.Scoped) : (s.only run).foundIn run = s.foundIn run := by
  simp only [foundIn, found_only h]

theorem derivePass_open (s : Store) (run : Int) (pass : Pass) :
    ∃ count, derivePass run pass {} s = (.ok count, s.withPass run pass) := by
  refine ⟨_, derivePass_ok_iff.mpr ⟨⟨rfl, ?_⟩, rfl, rfl⟩⟩
  split <;> rfl

theorem fillOccurrences_open (s : Store) (run : Int) :
    ∃ counts, fillOccurrences run {} s = (.ok counts, s.derived run) := by
  obtain ⟨c₁, h₁⟩ := derivePass_open s run .definitions
  obtain ⟨c₂, h₂⟩ := derivePass_open (s.withPass run .definitions) run .references
  obtain ⟨c₃, h₃⟩ := derivePass_open _ run .implementations
  obtain ⟨c₄, h₄⟩ := derivePass_open _ run .types
  exact ⟨⟨c₁, c₂, c₃, c₄⟩, Action.bind_ok_iff.mpr ⟨c₁, _, h₁, Action.bind_ok_iff.mpr ⟨c₂, _, h₂,
    Action.bind_ok_iff.mpr ⟨c₃, _, h₃, Action.bind_ok_iff.mpr ⟨c₄, _, h₄, rfl⟩⟩⟩⟩⟩

theorem derivable_eq (h : s.Scoped) (run : Int) :
    s.derivable run = (s.foundIn run).foldl addOccurrence [] := by
  obtain ⟨counts, hf⟩ := fillOccurrences_open { s.only run with occurrences := [] } run
  unfold derivable
  rw [hf, derived_eq, ← foundIn_only h]
  rfl

theorem occurrencesIn_of_only (he : t.only run = s.only run) :
    t.occurrencesIn run = s.occurrencesIn run := congrArg Store.occurrences he

theorem derivable_of_only (he : t.only run = s.only run) : t.derivable run = s.derivable run := by
  unfold derivable
  rw [he]

theorem derivable_derived (h : s.Scoped) (run : Int) :
    (s.derived run).derivable run = s.derivable run := by
  rw [derivable_eq (scoped_derived h run), derivable_eq h, foundIn_derived]

theorem occurrencesIn_derived (h : s.Scoped) (run : Int) :
    (s.derived run).occurrencesIn run =
      (s.foundIn run).foldl addOccurrence (s.occurrencesIn run) := by
  unfold occurrencesIn
  rw [derived_eq, filter_foldl_addOccurrence fun o ho => foundIn_inRun h ho]

theorem filled_derived_of_none (h : s.Scoped) (hn : s.occurrencesIn run = []) :
    (s.derived run).Filled run := by
  unfold Filled
  rw [occurrencesIn_derived h, hn, derivable_derived h, derivable_eq h]

theorem Filled.taken (hf : s.Filled run) (h : s.Scoped) {o : Occurrence}
    (ho : o ∈ s.foundIn run) : s.occurrences.any o.samePlace = true := by
  have ht : (s.occurrencesIn run).any o.samePlace = true := by
    rw [show s.occurrencesIn run = s.derivable run from hf, derivable_eq h]
    exact taken_foldl (.inr ho)
  obtain ⟨p, hp, he⟩ := List.any_eq_true.mp ht
  exact List.any_eq_true.mpr ⟨p, (List.mem_filter.mp hp).1, he⟩

theorem Filled.withPass (hf : s.Filled run) (h : s.Scoped) (pass : Pass) :
    s.withPass run pass = s := by
  unfold Store.withPass
  rw [foldl_addOccurrence_of_taken]
  intro o ho
  refine hf.taken h ?_
  simp only [foundIn, List.mem_append]
  cases pass <;> simp [ho]

theorem Filled.derived (hf : s.Filled run) (h : s.Scoped) : s.derived run = s := by
  unfold Store.derived
  simp only [hf.withPass h]

theorem Filled.derive_ok (hf : s.Filled run) (h : s.Scoped) {access : Access}
    {counts : DerivationCounts} (hd : derive run access s = (.ok counts, t)) :
    counts = ⟨0, 0, 0, 0⟩ ∧ t = s := by
  have pass_ok : ∀ {access : Access} {pass : Pass} {count : Nat} {u : Store},
      derivePass run pass access s = (.ok count, u) → count = 0 ∧ u = s := by
    intro access pass count u hp
    obtain ⟨-, hc, hu⟩ := derivePass_ok_iff.mp hp
    rw [hf.withPass h] at hc hu
    exact ⟨by omega, hu.symm⟩
  obtain ⟨-, hfill, -⟩ := Action.transaction_ok_iff.mp (Action.mapError_ok_iff.mp hd)
  obtain ⟨u₁, u₂, u₃, h₁, h₂, h₃, h₄⟩ := fillOccurrences_passes hfill
  obtain ⟨c₁, rfl⟩ := pass_ok h₁
  obtain ⟨c₂, rfl⟩ := pass_ok h₂
  obtain ⟨c₃, rfl⟩ := pass_ok h₃
  obtain ⟨c₄, rfl⟩ := pass_ok h₄
  cases counts
  cases c₁
  cases c₂
  cases c₃
  cases c₄
  exact ⟨rfl, rfl⟩

theorem occurrencesIn_withoutOccurrences (s : Store) (run : Int) :
    (s.withoutOccurrences run).occurrencesIn run = [] := by
  refine List.filter_eq_nil_iff.mpr fun o ho => ?_
  have hn := (List.mem_filter.mp ho).2
  simpa using hn

theorem derivable_withoutOccurrences (h : s.Scoped) (run : Int) :
    (s.withoutOccurrences run).derivable run = s.derivable run := by
  rw [derivable_eq ((extends_withoutOccurrences h run).scoped h), derivable_eq h]
  rfl

theorem filled_rebuilt (h : s.Scoped) (run : Int) :
    ((s.withoutOccurrences run).derived run).Filled run :=
  filled_derived_of_none ((extends_withoutOccurrences h run).scoped h)
    (occurrencesIn_withoutOccurrences s run)

theorem Filled.rebuild_ok (hf : s.Filled run) (h : s.Scoped) {access : Access}
    {counts : DerivationCounts} (hd : rebuild run access s = (.ok counts, t)) :
    (∀ id, t.occurrencesIn id = s.occurrencesIn id) ∧
      { t with occurrences := s.occurrences } = s := by
  have ht : (s.withoutOccurrences run).derived run = t :=
    derivation_store (Action.mapError_ok_iff.mp hd)
  have hw := (extends_withoutOccurrences h run).scoped h
  subst ht
  refine ⟨fun id => ?_, ?_⟩
  · by_cases hid : id = run
    · subst hid
      rw [filled_rebuilt h id, derivable_derived hw, derivable_withoutOccurrences h, hf]
    · rw [occurrencesIn_of_only (only_derived hw (Ne.symm hid))]
      exact occurrencesIn_of_only (spares_withoutOccurrences (Ne.symm hid)).only
  · rw [derived_eq]
    rfl

theorem Write.occurrences {run : Int} (w : Write run s t) : t.occurrences = s.occurrences := by
  cases w <;> rfl

theorem occurrences_withDump (h : s.Scoped) (about : RunMeta) (createdAt : Int)
    (stream : ByteStream) : (s.withDump about createdAt stream).occurrences = s.occurrences :=
  withDump_keeps (motive := fun t => t.occurrences = s.occurrences) h about createdAt stream rfl
    fun _ w hm => w.occurrences.trans hm

theorem occurrencesIn_withDump (h : s.Scoped) (about : RunMeta) (createdAt : Int)
    (stream : ByteStream) :
    (s.withDump about createdAt stream).occurrencesIn (s.runs.last + 1) = [] := by
  unfold occurrencesIn
  rw [occurrences_withDump h, List.filter_eq_nil_iff]
  intro o ho he
  exact h.ordered.runs.ne_next ((h.occurrences o ho).1.live h) (beq_iff_eq.mp he)

/-- A run has just what a derivation finds if one has succeeded, and nothing before that. -/
def Fresh (s : Store) (run : Int) (derived : Prop) : Prop :=
  (derived → s.Filled run) ∧ (¬ derived → s.occurrencesIn run = [])

theorem fresh_none (hn : s.occurrencesIn run = []) {derived : Prop} (hd : ¬ derived) :
    s.Fresh run derived := ⟨fun h => absurd h hd, fun _ => hn⟩

theorem Filled.fresh (hf : s.Filled run) {derived : Prop} (hd : derived) : s.Fresh run derived :=
  ⟨fun _ => hf, fun hn => absurd hd hn⟩

theorem Fresh.of_only {derived : Prop} (hf : s.Fresh run derived)
    (he : t.only run = s.only run) : t.Fresh run derived := by
  unfold Fresh Filled
  rw [occurrencesIn_of_only he, derivable_of_only he]
  exact hf

theorem Fresh.filled_derived {derived : Prop} (hf : s.Fresh run derived) (h : s.Scoped) :
    (s.derived run).Filled run := by
  by_cases hd : derived
  · have hk := hf.1 hd
    rwa [hk.derived h]
  · exact filled_derived_of_none h (hf.2 hd)

end Store

/-- One step keeps a run fresh, whatever it is about. -/
theorem Operation.fresh_after {op : Operation} {access : Access} {s : Store} {run : Int}
    {derived : Prop} (h : s.Scoped) (hb : derived → run ≤ s.runs.last)
    (hf : s.runs.has run = true → s.Fresh run derived)
    (live : (op.after access s).runs.has run = true) :
    (op.after access s).Fresh run (op.Derives access s run ∨ derived) := by
  by_cases hr : s.runs.has run = true
  · have before := hf hr
    by_cases ht : op.target? = some run
    · rcases target_cases h hr ht live with ⟨he, hn⟩ | ⟨he | he, hd⟩
      · rwa [he, or_iff_right hn]
      · rw [he]
        exact (before.filled_derived h).fresh (.inl hd)
      · rw [he]
        exact (Store.filled_rebuilt h run).fresh (.inl hd)
    · have hn : ¬ op.Derives access s run := fun hd => ht (hd.target h hr)
      rw [or_iff_right hn]
      exact before.of_only (only_after h hr ht)
  · obtain ⟨rfl, about, createdAt, stream, hcase⟩ := new_run_cases h hr live
    have hempty := Store.occurrencesIn_withDump h about createdAt stream
    rcases hcase with ⟨he, hn⟩ | ⟨he, hd⟩
    · rw [he]
      refine Store.fresh_none hempty (not_or.mpr ⟨hn, fun hd => ?_⟩)
      have := hb hd
      omega
    · have hs := scoped_withDump h about createdAt stream
      rw [he]
      exact (Store.filled_derived_of_none hs hempty).fresh (.inl hd)

namespace History

variable {run : Int}

theorem le_last_of_derived {history : History} (hd : history.Derived run) :
    run ≤ history.store.runs.last := by
  induction history with
  | nil => exact hd.elim
  | cons step earlier ih =>
    have hs := (reachable earlier).scoped
    rcases hd with hd | hd
    · exact hd.le_last hs
    · exact Int.le_trans (ih hd) (Operation.last_after hs)

theorem fresh (history : History) (live : history.store.runs.has run = true) :
    history.store.Fresh run (history.Derived run) := by
  induction history with
  | nil => cases live
  | cons step earlier ih =>
    exact Operation.fresh_after (reachable earlier).scoped le_last_of_derived ih live

end History

/-- The occurrences of a run that is there are all or nothing: none as long as no derivation of the
run has succeeded, and from then on, whatever is done, those that a derivation finds in the rows of
the run alone.  Deriving once more adds nothing, and deriving anew leaves the same. -/
theorem occurrences_all_or_nothing (history : History) {run : Int}
    (live : history.store.runs.has run = true) :
    (¬ history.Derived run → history.store.occurrencesIn run = []) ∧
    (history.Derived run →
      (∀ later : History, (History.store (later ++ history)).runs.has run = true →
        (History.store (later ++ history)).occurrencesIn run =
          (History.store (later ++ history)).derivable run) ∧
      (∀ access counts t, derive run access history.store = (.ok counts, t) →
        counts = ⟨0, 0, 0, 0⟩ ∧ t = history.store) ∧
      ∀ access counts t, rebuild run access history.store = (.ok counts, t) →
        (∀ id, t.occurrencesIn id = history.store.occurrencesIn id) ∧
          { t with occurrences := history.store.occurrences } = history.store) := by
  have hs := history.reachable.scoped
  have hf := history.fresh live
  refine ⟨hf.2, fun hd => ⟨fun later hl => ?_, fun access counts t => ?_,
    fun access counts t => ?_⟩⟩
  · exact (History.fresh (later ++ history) hl).1 (History.derived_append hd later)
  · exact (hf.1 hd).derive_ok hs
  · exact (hf.1 hd).rebuild_ok hs

def sampleHistory : History := [(.ingest {} {} sampleDump, {})]

/-- The one occurrence of the sample is what a derivation finds in it. -/
theorem sample_occurrence_found :
    sampleHistory.store.occurrencesIn 1 = [⟨1, 1, 1, 1, .definition⟩] ∧
      sampleHistory.store.occurrencesIn 1 = sampleHistory.store.derivable 1 := by
  have hstore : sampleHistory.store = sampleStore := Operation.after_ingest ingest_sample
  have hd : sampleHistory.Derived 1 := .inl (Operation.derives_ingest ingest_sample rfl)
  have live : sampleHistory.store.runs.has 1 = true := by
    rw [hstore]
    decide
  refine ⟨?_, ((occurrences_all_or_nothing sampleHistory live).2 hd).1 [] live⟩
  rw [hstore]
  decide

end SymbolAtlas
