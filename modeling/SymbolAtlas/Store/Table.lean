import SymbolAtlas.Lookup

/-!
Tables of numbered rows.  Rows are numbered from one in the order in which they come, and a
number is never given out twice, also when its row is gone.
-/

namespace SymbolAtlas

/-- Numbered rows, and the last number that was given out. -/
structure Table (α : Type) where
  last : Int := 0
  rows : List (Int × α) := []
deriving DecidableEq

namespace Table

variable {α : Type}

def get? (t : Table α) (id : Int) : Option α := t.rows.lookup id

def has (t : Table α) (id : Int) : Bool := (t.get? id).isSome

/-- Whether the row is there, if one is named at all. -/
def hasOption (t : Table α) (id : Option Int) : Bool := id.all t.has

def holds (t : Table α) (id : Int) (p : α → Bool) : Bool := (t.get? id).any p

def any (t : Table α) (p : α → Bool) : Bool := t.rows.any fun r => p r.2

def count (t : Table α) (p : α → Bool) : Nat := t.rows.countP fun r => p r.2

def insert (t : Table α) (row : α) : Table α := ⟨t.last + 1, t.rows ++ [(t.last + 1, row)]⟩

/-- Gives out the next number to no row at all. -/
def skip (t : Table α) : Table α := { t with last := t.last + 1 }

def modify (t : Table α) (id : Int) (change : α → α) : Table α :=
  { t with rows := t.rows.map fun r => if r.1 = id then (r.1, change r.2) else r }

def modifyAll (t : Table α) (change : α → α) : Table α :=
  { t with rows := t.rows.map fun r => (r.1, change r.2) }

def keep (t : Table α) (p : Int → α → Bool) : Table α :=
  { t with rows := t.rows.filter fun r => p r.1 r.2 }

@[simp]
theorem last_insert (t : Table α) (row : α) : (t.insert row).last = t.last + 1 := rfl

@[simp]
theorem rows_insert (t : Table α) (row : α) :
    (t.insert row).rows = t.rows ++ [(t.last + 1, row)] := rfl

@[simp]
theorem get?_skip (t : Table α) (id : Int) : t.skip.get? id = t.get? id := rfl

theorem get?_insert (t : Table α) (row : α) (id : Int) :
    (t.insert row).get? id = (t.get? id).or (if id = t.last + 1 then some row else none) := by
  simp [get?, insert, List.lookup_append, lookup_cons]

theorem get?_modify (t : Table α) (id j : Int) (change : α → α) :
    (t.modify id change).get? j =
      (t.get? j).map fun a => if j = id then change a else a := by
  unfold get? modify
  induction t.rows with
  | nil => rfl
  | cons r rest ih =>
    obtain ⟨k, a⟩ := r
    simp only at ih
    by_cases hk : k = id
    · by_cases hj : j = k <;> simp_all [lookup_cons]
    · by_cases hj : j = k <;> simp_all [lookup_cons]

theorem get?_modifyAll (t : Table α) (id : Int) (change : α → α) :
    (t.modifyAll change).get? id = (t.get? id).map change := by
  unfold get? modifyAll
  induction t.rows with
  | nil => rfl
  | cons r rest ih =>
    obtain ⟨k, a⟩ := r
    by_cases hk : id = k <;> simp_all [lookup_cons]

@[simp]
theorem mem_rows_keep (t : Table α) (p : Int → α → Bool) (r : Int × α) :
    r ∈ (t.keep p).rows ↔ r ∈ t.rows ∧ p r.1 r.2 = true := by
  simp [keep]

end Table

end SymbolAtlas
