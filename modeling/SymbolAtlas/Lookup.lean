/-!
Looking up numbers in lists of pairs.
-/

namespace SymbolAtlas

theorem lookup_cons {α : Type} (k j : Int) (a : α) (rest : List (Int × α)) :
    List.lookup j ((k, a) :: rest) = if j = k then some a else List.lookup j rest := by
  rw [List.lookup_cons]
  by_cases h : j = k
  · simp [h]
  · have hb : (j == k) = false := by simp [h]
    simp [h, hb]

theorem lookup_filter_ne {α : Type} (k j : Int) (pairs : List (Int × α)) :
    List.lookup j (pairs.filter fun p => p.1 != k) =
      if j = k then none else List.lookup j pairs := by
  induction pairs with
  | nil => simp
  | cons p rest ih =>
    obtain ⟨l, a⟩ := p
    rw [lookup_cons]
    by_cases hl : l = k
    · rw [List.filter_cons_of_neg (by simp [hl]), ih]
      split
      · rfl
      · next hj => rw [if_neg (fun h => hj (h.trans hl))]
    · rw [List.filter_cons_of_pos (by simp [hl]), lookup_cons, ih]
      by_cases hj : j = l
      · rw [if_pos hj, if_pos hj, if_neg (fun h => hl (hj.symm.trans h))]
      · rw [if_neg hj, if_neg hj]

end SymbolAtlas
