import SymbolAtlas.Store.Table

/-!
Tables whose numbers go up.  In such a table a number stands for one row at most, and the next
number for none.
-/

namespace SymbolAtlas

namespace Table

variable {α β : Type} {t : Table α} {id : Int} {a : α}

/-- The numbers go up from row to row, and none is above the last one that was given out. -/
structure Ordered (t : Table α) : Prop where
  increasing : t.rows.Pairwise fun a b => a.1 < b.1
  bounded : ∀ r ∈ t.rows, r.1 ≤ t.last

/-- One thing about the row with the given number. -/
def view (t : Table α) (f : α → β) (id : Int) : Option β := (t.get? id).map f

theorem has_iff : t.has id = true ↔ ∃ a, t.get? id = some a := Option.isSome_iff_exists

theorem view_eq_some_iff {f : α → β} {b : β} :
    t.view f id = some b ↔ ∃ a, t.get? id = some a ∧ f a = b := Option.map_eq_some_iff

theorem holds_iff {p : α → Bool} :
    t.holds id p = true ↔ ∃ a, t.get? id = some a ∧ p a = true := by
  unfold holds
  rw [Option.any_eq_true]

theorem mem_of_get? (h : t.get? id = some a) : (id, a) ∈ t.rows := by
  obtain ⟨l₁, l₂, he, -⟩ := List.lookup_eq_some_iff.mp h
  rw [he]
  exact List.mem_append_right _ List.mem_cons_self

theorem mem_insert_iff {row : α} {r : Int × α} :
    r ∈ (t.insert row).rows ↔ r ∈ t.rows ∨ r = (t.last + 1, row) := by
  rw [rows_insert, List.mem_append, List.mem_singleton]

theorem mem_modify_iff {change : α → α} {r : Int × α} :
    r ∈ (t.modify id change).rows ↔
      ∃ a, (r.1, a) ∈ t.rows ∧ r.2 = if r.1 = id then change a else a := by
  unfold modify
  simp only [List.mem_map]
  constructor
  · rintro ⟨⟨j, a⟩, hm, rfl⟩
    by_cases hj : j = id
    · exact ⟨a, by simpa [hj] using hm, by simp [hj]⟩
    · exact ⟨a, by simpa [hj] using hm, by simp [hj]⟩
  · rintro ⟨a, hm, he⟩
    refine ⟨(r.1, a), hm, ?_⟩
    by_cases hj : r.1 = id
    · rw [if_pos hj] at he ⊢
      exact Prod.ext rfl he.symm
    · rw [if_neg hj] at he ⊢
      exact Prod.ext rfl he.symm

theorem get?_insert_of_some {row : α} (h : t.get? id = some a) :
    (t.insert row).get? id = some a := by rw [get?_insert, h]; rfl

theorem has_insert {row : α} (h : t.has id = true) : (t.insert row).has id = true := by
  obtain ⟨a, ha⟩ := has_iff.mp h
  exact has_iff.mpr ⟨a, get?_insert_of_some ha⟩

theorem has_modify (j : Int) (change : α → α) : (t.modify j change).has id = t.has id := by
  unfold has
  rw [get?_modify, Option.isSome_map]

theorem view_insert {f : α → β} {b : β} {row : α} (h : t.view f id = some b) :
    (t.insert row).view f id = some b := by
  obtain ⟨a, ha, rfl⟩ := view_eq_some_iff.mp h
  exact view_eq_some_iff.mpr ⟨a, get?_insert_of_some ha, rfl⟩

theorem has_of_view {f : α → β} {b : β} (h : t.view f id = some b) : t.has id = true := by
  obtain ⟨a, ha, -⟩ := view_eq_some_iff.mp h
  exact has_iff.mpr ⟨a, ha⟩

theorem bind_view_insert {link : Option Int} (h : ∀ id, link = some id → t.has id = true)
    (f : α → β) (row : α) : link.bind ((t.insert row).view f) = link.bind (t.view f) := by
  cases link with
  | none => rfl
  | some id =>
    obtain ⟨a, ha⟩ := has_iff.mp (h id rfl)
    have hv : t.view f id = some (f a) := view_eq_some_iff.mpr ⟨a, ha, rfl⟩
    exact (view_insert hv).trans hv.symm

theorem view_modify {f : α → β} {j : Int} {change : α → α} (hf : ∀ a, f (change a) = f a) :
    (t.modify j change).view f id = t.view f id := by
  unfold view
  rw [get?_modify, Option.map_map]
  congr 1
  funext a
  by_cases hj : id = j <;> simp [hj, hf]

theorem view_modifyAll {f : α → β} {change : α → α} (hf : ∀ a, f (change a) = f a) :
    (t.modifyAll change).view f id = t.view f id := by
  unfold view
  rw [get?_modifyAll, Option.map_map]
  congr 1
  funext a
  exact hf a

theorem mem_modifyAll_iff {change : α → α} {r : Int × α} :
    r ∈ (t.modifyAll change).rows ↔ ∃ a, (r.1, a) ∈ t.rows ∧ r.2 = change a := by
  unfold modifyAll
  simp only [List.mem_map]
  constructor
  · rintro ⟨q, hq, rfl⟩
    exact ⟨q.2, hq, rfl⟩
  · rintro ⟨a, ha, he⟩
    exact ⟨(r.1, a), ha, Prod.ext rfl he.symm⟩

theorem modifyAll_eq_self {change : α → α} (h : ∀ r ∈ t.rows, change r.2 = r.2) :
    t.modifyAll change = t := by
  unfold modifyAll
  have hrows : t.rows.map (fun r => (r.1, change r.2)) = t.rows.map id :=
    List.map_congr_left fun r hr => Prod.ext rfl (h r hr)
  rw [hrows, List.map_id]

theorem keep_congr {p q : Int → α → Bool} (h : ∀ r ∈ t.rows, p r.1 r.2 = q r.1 r.2) :
    t.keep p = t.keep q := by
  unfold keep
  rw [List.filter_congr h]

namespace Ordered

theorem empty : ({} : Table α).Ordered := ⟨.nil, by simp⟩

theorem get?_eq_some_iff (h : t.Ordered) : t.get? id = some a ↔ (id, a) ∈ t.rows := by
  refine ⟨mem_of_get?, fun hm => ?_⟩
  obtain ⟨l₁, l₂, he⟩ := List.append_of_mem hm
  refine List.lookup_eq_some_iff.mpr ⟨l₁, l₂, he, fun r hr => ?_⟩
  have hp := h.increasing
  rw [he, List.pairwise_append] at hp
  have hlt : r.1 < id := hp.2.2 r hr (id, a) List.mem_cons_self
  simp only [bne_iff_ne, ne_eq]
  omega

theorem le_last (h : t.Ordered) (hm : t.get? id = some a) : id ≤ t.last :=
  h.bounded (id, a) (mem_of_get? hm)

theorem ne_next (h : t.Ordered) (hid : t.has id = true) : id ≠ t.last + 1 := by
  obtain ⟨a, ha⟩ := has_iff.mp hid
  have := h.le_last ha
  omega

theorem get?_next (h : t.Ordered) : t.get? (t.last + 1) = none := by
  cases hg : t.get? (t.last + 1) with
  | none => rfl
  | some a =>
    have := h.le_last hg
    omega

theorem get?_insert_next (h : t.Ordered) (row : α) :
    (t.insert row).get? (t.last + 1) = some row := by
  rw [get?_insert, h.get?_next]
  simp

theorem view_insert_next (h : t.Ordered) (row : α) {f : α → β} :
    (t.insert row).view f (t.last + 1) = some (f row) :=
  view_eq_some_iff.mpr ⟨row, h.get?_insert_next row, rfl⟩

theorem insert (h : t.Ordered) (row : α) : (t.insert row).Ordered := by
  refine ⟨?_, fun r hr => ?_⟩
  · rw [rows_insert, List.pairwise_append]
    refine ⟨h.increasing, by simp, ?_⟩
    intro r hr new hn
    have hb := h.bounded r hr
    have he : new.1 = t.last + 1 := by simp [List.mem_singleton.mp hn]
    omega
  · rw [last_insert]
    rcases mem_insert_iff.mp hr with hr | hr
    · have hb := h.bounded r hr
      omega
    · simp [hr]

theorem skip (h : t.Ordered) : t.skip.Ordered := by
  refine ⟨h.increasing, fun r hr => ?_⟩
  have hb := h.bounded r hr
  change r.1 ≤ t.last + 1
  omega

theorem map (h : t.Ordered) {f : Int × α → Int × α} (hf : ∀ r, (f r).1 = r.1) :
    ({ t with rows := t.rows.map f } : Table α).Ordered := by
  refine ⟨List.pairwise_map.mpr (h.increasing.imp ?_), fun r hr => ?_⟩
  · intro r q hlt
    rwa [hf, hf]
  · obtain ⟨q, hq, rfl⟩ := List.mem_map.mp hr
    rw [hf]
    exact h.bounded q hq

theorem modify (h : t.Ordered) (id : Int) (change : α → α) : (t.modify id change).Ordered :=
  h.map fun r => by split <;> rfl

theorem mem_modify (h : t.Ordered) (ha : t.get? id = some a) {change : α → α} {r : Int × α}
    (hm : r ∈ (t.modify id change).rows) : r ∈ t.rows ∨ r = (id, change a) := by
  obtain ⟨b, hb, he⟩ := mem_modify_iff.mp hm
  split at he
  next hid =>
    rw [hid, ← h.get?_eq_some_iff, ha] at hb
    rw [← Option.some.inj hb] at he
    exact .inr (Prod.ext hid he)
  next =>
    rw [← he] at hb
    exact .inl hb

theorem modifyAll (h : t.Ordered) (change : α → α) : (t.modifyAll change).Ordered :=
  h.map fun _ => rfl

theorem keep (h : t.Ordered) (p : Int → α → Bool) : (t.keep p).Ordered :=
  ⟨h.increasing.filter _, fun r hr => h.bounded r ((mem_rows_keep t p r).mp hr).1⟩

theorem get?_keep (h : t.Ordered) (p : Int → α → Bool) (id : Int) :
    (t.keep p).get? id = (t.get? id).filter (p id) := by
  apply Option.ext
  intro a
  rw [(h.keep p).get?_eq_some_iff, mem_rows_keep, Option.filter_eq_some_iff, h.get?_eq_some_iff]

theorem view_keep (h : t.Ordered) {p : Int → α → Bool} {f : α → β} {b : β} :
    (t.keep p).view f id = some b ↔ ∃ a, t.get? id = some a ∧ p id a = true ∧ f a = b := by
  rw [view_eq_some_iff]
  constructor
  · rintro ⟨a, ha, hb⟩
    rw [h.get?_keep, Option.filter_eq_some_iff] at ha
    exact ⟨a, ha.1, ha.2, hb⟩
  · rintro ⟨a, ha, hp, hb⟩
    exact ⟨a, by rw [h.get?_keep, Option.filter_eq_some_iff]; exact ⟨ha, hp⟩, hb⟩

end Ordered

end Table

end SymbolAtlas
