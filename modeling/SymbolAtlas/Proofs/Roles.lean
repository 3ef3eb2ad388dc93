import SymbolAtlas.Proofs.Freshness

namespace SymbolAtlas

namespace Occurrence

variable {a b : Occurrence}

theorem samePlace_iff : a.samePlace b = true ↔ b = { a with role := b.role } := by
  cases a
  cases b
  simp only [samePlace, Bool.and_eq_true, beq_iff_eq, mk.injEq, and_true, and_assoc]
  constructor
  · rintro ⟨h₁, h₂, h₃, h₄⟩
    exact ⟨h₁.symm, h₂.symm, h₃.symm, h₄.symm⟩
  · rintro ⟨h₁, h₂, h₃, h₄⟩
    exact ⟨h₁.symm, h₂.symm, h₃.symm, h₄.symm⟩

theorem samePlace_self (a : Occurrence) : a.samePlace a = true := samePlace_iff.mpr rfl

theorem samePlace_congr (h : a.samePlace b = true) : b.samePlace = a.samePlace := by
  funext c
  rw [samePlace_iff.mp h]
  rfl

end Occurrence

/-- Added is what comes first in its place, if the place was free. -/
theorem mem_foldl_addOccurrence_iff {found there : List Occurrence} {o : Occurrence} :
    o ∈ found.foldl addOccurrence there ↔
      o ∈ there ∨ there.any o.samePlace = false ∧ found.find? o.samePlace = some o := by
  induction found generalizing there with
  | nil => simp
  | cons first rest ih =>
    rw [List.foldl_cons, ih]
    by_cases hp : o.samePlace first = true
    · have he := Occurrence.samePlace_congr hp
      rw [List.find?_cons_of_pos hp, Option.some.injEq]
      unfold addOccurrence
      rw [he]
      split
      next ht => simp [ht]
      next ht =>
        have hf : there.any o.samePlace = false := by simpa using ht
        simp [hp, hf, eq_comm]
    · have hne : o ≠ first := fun he => hp (he ▸ o.samePlace_self)
      rw [List.find?_cons_of_neg hp]
      unfold addOccurrence
      split
      next => rfl
      next => simp [hp, hne]

namespace Store

variable {s : Store} {run symbol : Int} {pass : Pass} {o : Occurrence}

theorem mem_symbolsOfItem_iff {kind : BucketKind} {item : Item} :
    symbol ∈ s.symbolsOfItem kind item ↔
      ∃ r ∈ s.resultSets.rows, r.2.run = item.run ∧ r.2.bucket? kind = some item.bucket ∧
        ∃ m, r.2.moniker = some m ∧ s.symbolOf? m = some symbol := by
  unfold symbolsOfItem
  rw [List.mem_filterMap]
  refine exists_congr fun r => and_congr_right fun _ => ?_
  split
  next hb => simp [hb, Option.bind_eq_some_iff]
  next hb =>
    simp only [reduceCtorEq, false_iff]
    rintro ⟨hr, hk, -⟩
    exact hb ⟨hr, hk⟩

theorem mem_found_iff :
    o ∈ s.found run pass ↔ ∃ p ∈ s.passItems pass, p.1.run = run ∧
      ∃ symbol ∈ s.symbolsOfItem pass.bucketKind p.1,
        o = ⟨p.1.run, symbol, p.1.document, p.1.range, p.2⟩ := by
  unfold found
  rw [List.mem_flatMap]
  refine exists_congr fun p => and_congr_right fun _ => ?_
  split
  next hr => simp [hr, List.mem_map, eq_comm]
  next hr => simp [hr]

theorem found_role (ho : o ∈ s.found run pass) :
    ∃ isDefinition, o.role = pass.referenceRole isDefinition := by
  obtain ⟨p, hp, -, symbol, -, rfl⟩ := mem_found_iff.mp ho
  cases pass with
  | definitions =>
    obtain ⟨r, -, rfl⟩ := List.mem_map.mp hp
    exact ⟨true, rfl⟩
  | _ =>
    obtain ⟨r, -, rfl⟩ := List.mem_map.mp hp
    exact ⟨r.2.isDefinition, rfl⟩

theorem Filled.mem_iff (hf : s.Filled run) (h : s.Scoped) :
    o ∈ s.occurrencesIn run ↔ (s.foundIn run).find? o.samePlace = some o := by
  rw [show s.occurrencesIn run = s.derivable run from hf, derivable_eq h,
    mem_foldl_addOccurrence_iff]
  simp

theorem Filled.among_first (hf : s.Filled run) (h : s.Scoped) {front back : List Occurrence}
    (hsplit : s.foundIn run = front ++ back) (ho : o ∈ front) :
    ∃ role, { o with role := role } ∈ front ∧ { o with role := role } ∈ s.occurrences := by
  have hsome : (front.find? o.samePlace).isSome = true :=
    List.find?_isSome.mpr ⟨o, ho, o.samePlace_self⟩
  obtain ⟨q, hq⟩ := Option.isSome_iff_exists.mp hsome
  have hplace : o.samePlace q = true := List.find?_some hq
  have hfirst : (s.foundIn run).find? q.samePlace = some q := by
    rw [Occurrence.samePlace_congr hplace, hsplit, List.find?_append, hq]
    rfl
  have hmem := (hf.mem_iff h).mpr hfirst
  refine ⟨q.role, ?_⟩
  rw [← Occurrence.samePlace_iff.mp hplace]
  exact ⟨List.mem_of_find?_eq_some hq, (List.mem_filter.mp hmem).1⟩

end Store

end SymbolAtlas
