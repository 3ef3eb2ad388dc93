import SymbolAtlas.Proofs.Scope

/-!
Derivation keeps to the scopes of runs: the occurrences that a pass finds lie in the run that it
goes over, and their symbols are linked from there.
-/

namespace SymbolAtlas

theorem mem_foldl_addOccurrence {found there : List Occurrence} {o : Occurrence}
    (h : o ∈ found.foldl addOccurrence there) : o ∈ there ∨ o ∈ found := by
  induction found generalizing there with
  | nil => exact .inl h
  | cons first rest ih =>
    rw [List.foldl_cons] at h
    rcases ih h with h | h
    · unfold addOccurrence at h
      split at h
      next => exact .inl h
      next =>
        rcases List.mem_append.mp h with h | h
        · exact .inl h
        · exact .inr (by rw [List.mem_singleton.mp h]; exact List.mem_cons_self)
    · exact .inr (List.mem_cons_of_mem _ h)

namespace Store

variable {s : Store}

theorem symbolOf?_mem {moniker symbol : Int} (h : s.symbolOf? moniker = some symbol) :
    (⟨moniker, symbol⟩ : MonikerLink) ∈ s.links := by
  obtain ⟨l, hl, rfl⟩ := Option.map_eq_some_iff.mp h
  have hm : l.moniker = moniker := by simpa using List.find?_some hl
  subst hm
  exact List.mem_of_find?_eq_some hl

theorem symbolsOfItem_linked (h : s.Scoped) {kind : BucketKind} {item : Item} {symbol : Int}
    (hs : symbol ∈ s.symbolsOfItem kind item) : s.LinkedFrom item.run symbol := by
  obtain ⟨r, hr, he⟩ := List.mem_filterMap.mp hs
  split at he
  next hb =>
    obtain ⟨m, hm, hl⟩ := Option.bind_eq_some_iff.mp he
    have hmr := h.monikerOf r hr m hm
    rw [hb.1] at hmr
    exact ⟨⟨m, symbol⟩, symbolOf?_mem hl, rfl, hmr⟩
  next => simp at he

theorem passItems_inRun (h : s.Scoped) {pass : Pass} {p : Item × Role}
    (hp : p ∈ s.passItems pass) : s.InRun p.1.run p.1.document p.1.range := by
  cases pass with
  | definitions =>
    obtain ⟨r, hr, rfl⟩ := List.mem_map.mp hp
    exact h.definitionItems r hr
  | references =>
    obtain ⟨r, hr, rfl⟩ := List.mem_map.mp hp
    exact h.referenceItems r hr
  | implementations =>
    obtain ⟨r, hr, rfl⟩ := List.mem_map.mp hp
    exact h.referenceItems r hr
  | types =>
    obtain ⟨r, hr, rfl⟩ := List.mem_map.mp hp
    exact h.referenceItems r hr

theorem found_inRun (h : s.Scoped) {run : Int} {pass : Pass} {o : Occurrence}
    (ho : o ∈ s.found run pass) :
    o.run = run ∧ s.InRun o.run o.document o.range ∧ s.LinkedFrom o.run o.symbol := by
  obtain ⟨p, hp, ho⟩ := List.mem_flatMap.mp ho
  split at ho
  next hr =>
    obtain ⟨symbol, hs, rfl⟩ := List.mem_map.mp ho
    exact ⟨hr, passItems_inRun h hp, symbolsOfItem_linked h hs⟩
  next => simp at ho

theorem extends_occurrences (h : s.Scoped) {occurrences : List Occurrence}
    (ho : ∀ o ∈ occurrences, o ∈ s.occurrences ∨
      s.InRun o.run o.document o.range ∧ s.LinkedFrom o.run o.symbol) :
    Extends s { s with occurrences := occurrences } :=
  { Extends.refl h.ordered with
    grows := { Grows.refl s with }
    ordered := { h.ordered with }
    occurrences := ho }

theorem extends_withPass (h : s.Scoped) (run : Int) (pass : Pass) :
    Extends s (s.withPass run pass) :=
  extends_occurrences h fun _ ho =>
    (mem_foldl_addOccurrence ho).imp_right fun hf => (found_inRun h hf).2

theorem extends_withoutOccurrences (h : s.Scoped) (run : Int) :
    Extends s (s.withoutOccurrences run) :=
  extends_occurrences h fun _ ho => .inl ((List.mem_filter.mp ho).1)

/-- The four passes, one after the other. -/
def derived (s : Store) (run : Int) : Store :=
  (((s.withPass run .definitions).withPass run .references).withPass run
    .implementations).withPass run .types

/-- What all passes find in a run. -/
def foundIn (s : Store) (run : Int) : List Occurrence :=
  s.found run .definitions ++ s.found run .references ++ s.found run .implementations ++
    s.found run .types

/-- What a pass finds does not depend on the occurrences that are there. -/
theorem withPass_eq (s : Store) (occurrences : List Occurrence) (run : Int) (pass : Pass) :
    ({ s with occurrences := occurrences } : Store).withPass run pass =
      { s with occurrences := (s.found run pass).foldl addOccurrence occurrences } := by
  unfold withPass
  cases pass <;> rfl

theorem derived_eq (s : Store) (run : Int) :
    s.derived run =
      { s with occurrences := (s.foundIn run).foldl addOccurrence s.occurrences } := by
  have hfirst := withPass_eq s s.occurrences run .definitions
  unfold derived foundIn
  rw [hfirst, withPass_eq s, withPass_eq s, withPass_eq s, List.foldl_append, List.foldl_append,
    List.foldl_append]

theorem scoped_derived (h : s.Scoped) (run : Int) : (s.derived run).Scoped := by
  have h₁ := (extends_withPass h run .definitions).scoped h
  have h₂ := (extends_withPass h₁ run .references).scoped h₁
  have h₃ := (extends_withPass h₂ run .implementations).scoped h₂
  exact (extends_withPass h₃ run .types).scoped h₃

end Store

theorem fillOccurrences_passes {access : Access} {s t : Store} {run : Int}
    {counts : DerivationCounts} (h : fillOccurrences run access s = (.ok counts, t)) :
    ∃ u₁ u₂ u₃, derivePass run .definitions access s = (.ok counts.definitions, u₁) ∧
      derivePass run .references access u₁ = (.ok counts.references, u₂) ∧
      derivePass run .implementations access u₂ = (.ok counts.implementations, u₃) ∧
      derivePass run .types access u₃ = (.ok counts.types, t) := by
  obtain ⟨_, u₁, h₁, h⟩ := Action.bind_ok_iff.mp h
  obtain ⟨_, u₂, h₂, h⟩ := Action.bind_ok_iff.mp h
  obtain ⟨_, u₃, h₃, h⟩ := Action.bind_ok_iff.mp h
  obtain ⟨_, u₄, h₄, h⟩ := Action.bind_ok_iff.mp h
  obtain ⟨rfl, rfl⟩ := Action.pure_ok_iff.mp h
  exact ⟨u₁, u₂, u₃, h₁, h₂, h₃, h₄⟩

theorem fillOccurrences_store {access : Access} {s t : Store} {run : Int}
    {counts : DerivationCounts} (h : fillOccurrences run access s = (.ok counts, t)) :
    s.derived run = t := by
  obtain ⟨u₁, u₂, u₃, h₁, h₂, h₃, h₄⟩ := fillOccurrences_passes h
  obtain ⟨-, -, rfl⟩ := derivePass_ok_iff.mp h₁
  obtain ⟨-, -, rfl⟩ := derivePass_ok_iff.mp h₂
  obtain ⟨-, -, rfl⟩ := derivePass_ok_iff.mp h₃
  obtain ⟨-, -, rfl⟩ := derivePass_ok_iff.mp h₄
  rfl

theorem derivation_store {access : Access} {s t : Store} {anew : Bool} {run : Int}
    {counts : DerivationCounts} (h : derivation anew run access s = (.ok counts, t)) :
    (if anew then s.withoutOccurrences run else s).derived run = t := by
  obtain ⟨-, h, -⟩ := Action.transaction_ok_iff.mp h
  cases anew with
  | false => exact fillOccurrences_store h
  | true =>
    obtain ⟨_, u, hc, hf⟩ := Action.bind_ok_iff.mp h
    obtain ⟨-, rfl⟩ := clearOccurrences_ok_iff.mp hc
    exact fillOccurrences_store hf

end SymbolAtlas
