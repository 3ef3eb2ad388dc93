import SymbolAtlas.Lookup
import SymbolAtlas.Position
import SymbolAtlas.Role

/-!
What an ingest knows about the ids of its dump.  An id can be used for several things at once,
so there is a map for each of them.
-/

namespace SymbolAtlas

/-- A map from stream ids, as pairs with distinct ids. -/
structure IdMap (α : Type) where
  pairs : List (Int × α) := []

namespace IdMap

variable {α : Type}

def get? (m : IdMap α) (id : Int) : Option α := m.pairs.lookup id

def has (m : IdMap α) (id : Int) : Bool := (m.get? id).isSome

def erase (m : IdMap α) (id : Int) : IdMap α := ⟨m.pairs.filter fun p => p.1 != id⟩

def insert (m : IdMap α) (id : Int) (value : α) : IdMap α := ⟨(id, value) :: (m.erase id).pairs⟩

def size (m : IdMap α) : Nat := m.pairs.length

theorem get?_erase (m : IdMap α) (id j : Int) :
    (m.erase id).get? j = if j = id then none else m.get? j :=
  lookup_filter_ne id j m.pairs

theorem get?_insert (m : IdMap α) (id j : Int) (value : α) :
    (m.insert id value).get? j = if j = id then some value else m.get? j := by
  have he := m.get?_erase id j
  unfold get? at he ⊢
  unfold insert
  rw [lookup_cons, he]
  split <;> rfl

end IdMap

structure UnclaimedRange where
  span : Span
  resultSet : Option Int

structure ClaimedRange where
  row : Int
  document : Int
  resultSet : Option Int

/-- The rows, unclaimed ranges and kinds of buckets that stream ids stand for. -/
structure Known where
  documents : IdMap Int := {}
  resultSets : IdMap Int := {}
  monikers : IdMap Int := {}
  hovers : IdMap Int := {}
  packages : IdMap Int := {}
  unclaimed : IdMap UnclaimedRange := {}
  claimed : IdMap ClaimedRange := {}
  kinds : IdMap BucketKind := {}

namespace Known

/-- The result set that an id leads to: its own, else that of its claimed range, else that of
its unclaimed range.  A claimed range without a result set leads nowhere. -/
def resultSetOf? (k : Known) (id : Int) : Option Int :=
  match k.resultSets.get? id with
  | some resultSet => some resultSet
  | none =>
    match k.claimed.get? id with
    | some range => range.resultSet
    | none => (k.unclaimed.get? id).bind UnclaimedRange.resultSet

def kindOf? (k : Known) (bucket : Int) : Option BucketKind := k.kinds.get? bucket

/-- Learns the kind of a bucket.  The first kind stays. -/
def learnKind (k : Known) (bucket : Int) (kind : BucketKind) : Known :=
  if k.kinds.has bucket then k else { k with kinds := k.kinds.insert bucket kind }

theorem kindOf?_learnKind (k : Known) (bucket id : Int) (kind : BucketKind) :
    (k.learnKind bucket kind).kindOf? id =
      (k.kindOf? id).or (if id = bucket then some kind else none) := by
  unfold learnKind kindOf?
  split
  next h =>
    by_cases hi : id = bucket
    · subst hi
      obtain ⟨old, ho⟩ := Option.isSome_iff_exists.mp h
      simp [ho]
    · simp [hi]
  next h =>
    have hn : k.kinds.get? bucket = none := by simpa [IdMap.has] using h
    rw [IdMap.get?_insert]
    by_cases hi : id = bucket <;> simp [hi, hn]

end Known

end SymbolAtlas
