import Mathlib.Data.List.Basic
import SymbolAtlas.Proofs.Reading

/-!
The numbers of rows, read off the records.  A table numbers its rows as they come, so the row that
an id stands for can be told from the records before and from the numbers that were given out when
the dump began.
-/

namespace SymbolAtlas

namespace Element

def documentId? : Element → Option Int
  | .vertex (.document id _ _) => some id
  | _ => none

def resultSetId? : Element → Option Int
  | .vertex (.resultSet id) => some id
  | _ => none

def monikerId? : Element → Option Int
  | .vertex (.moniker id _ _ _ _) => some id
  | _ => none

def hoverId? : Element → Option Int
  | .vertex (.hoverResult id _) => some id
  | _ => none

def packageId? : Element → Option Int
  | .vertex (.packageInformation id _ _ _) => some id
  | _ => none

def range? : Element → Option (Int × Span)
  | .vertex (.range id span) => some (id, span)
  | _ => none

end Element

/-- A target of an item edge, as it stood when the edge came: the first kind that was learned for
the bucket until then, and the range that was stored under the id of the target, if there was
one. -/
structure Target where
  bucket : Int
  kind : Option BucketKind
  property : Option String
  range : Option ClaimedRange

namespace Past

/-- The row of the latest vertex of a kind that has the given id. -/
def row? (last : Int) (idOf : Element → Option Int) (past : Past) (id : Int) : Option Int :=
  past.latest fun e past =>
    if idOf e = some id then some (last + 1 + past.countP fun e => (idOf e).isSome) else none

def documentRow? (base : Store) (past : Past) (id : Int) : Option Int :=
  past.row? base.documents.last Element.documentId? id

def resultSetRow? (base : Store) (past : Past) (id : Int) : Option Int :=
  past.row? base.resultSets.last Element.resultSetId? id

def monikerRow? (base : Store) (past : Past) (id : Int) : Option Int :=
  past.row? base.monikers.last Element.monikerId? id

def hoverRow? (base : Store) (past : Past) (id : Int) : Option Int :=
  past.row? base.hovers.last Element.hoverId? id

def packageRow? (base : Store) (past : Past) (id : Int) : Option Int :=
  past.row? base.packages.last Element.packageId? id

/-- The range that waits under an id for a document, with the result set that it has so far. -/
def waiting? (base : Store) (id : Int) : Past → Option UnclaimedRange
  | [] => none
  | .vertex (.range r span) :: past => if id = r then some ⟨span, none⟩ else waiting? base id past
  | .edge (.contains outV inVs) :: past =>
    if id ∈ inVs ∧ (documentRow? base past outV).isSome then none else waiting? base id past
  | .edge (.next outV inV) :: past =>
    match resultSetRow? base past inV with
    | some resultSet =>
      if id = outV then
        (waiting? base id past).map fun range => { range with resultSet := some resultSet }
      else waiting? base id past
    | none => waiting? base id past
  | _ :: past => waiting? base id past

/-- The ranges that a document takes of those that wait, each of them once. -/
def taken (waiting : Int → Option UnclaimedRange) (document : Int) (ids : List Int) :
    List (Int × Range) :=
  ids.eraseDups.filterMap fun id =>
    (waiting id).map fun range => (id, ⟨document, range.span, range.resultSet⟩)

/-- Gives the range that was stored last under an id another result set. -/
def relink (id resultSet : Int) : List (Int × Range) → List (Int × Range)
  | [] => []
  | (j, range) :: rest =>
    if id = j then (j, { range with resultSet := some resultSet }) :: rest
    else (j, range) :: relink id resultSet rest

/-- The ranges that documents have taken, under their ids, the latest first. -/
def placed (base : Store) : Past → List (Int × Range)
  | [] => []
  | .edge (.contains outV inVs) :: past =>
    match documentRow? base past outV with
    | some document =>
      (taken (fun id => waiting? base id past) document inVs).reverse ++ placed base past
    | none => placed base past
  | .edge (.next outV inV) :: past =>
    -- A range that waits is linked in place of one that is stored under the same id.
    match resultSetRow? base past inV, waiting? base outV past with
    | some resultSet, none => relink outV resultSet (placed base past)
    | _, _ => placed base past
  | _ :: past => placed base past

/-- The row of the latest of some ranges that has the given id. -/
def rowIn? (last id : Int) : List (Int × Range) → Option ClaimedRange
  | [] => none
  | (j, range) :: rest =>
    if id = j then some ⟨last + 1 + rest.length, range.document, range.resultSet⟩
    else rowIn? last id rest

def stored? (base : Store) (past : Past) (id : Int) : Option ClaimedRange :=
  rowIn? base.ranges.last id (past.placed base)

/-- The result set that an id leads to: its own, else the one that its range is linked to. -/
def leadsTo? (base : Store) (past : Past) (id : Int) : Option Int :=
  (past.resultSetRow? base id).or
    (match past.stored? base id with
    | some range => range.resultSet
    | none => (past.waiting? base id).bind UnclaimedRange.resultSet)

/-- The number of rows that are missing for an edge between two of them. -/
def missing (source target : Option Int) : Nat := if source.isSome ∧ target.isSome then 0 else 1

/-- The ends of a record that stand for nothing when it comes, but for the targets of items. -/
def dangling (base : Store) (past : Past) : Element → Nat
  | .edge (.contains outV inVs) =>
    match past.documentRow? base outV with
    | some document =>
      inVs.length - (taken (fun id => past.waiting? base id) document inVs).length
    | none => 1
  | .edge (.next outV inV) =>
    if (past.resultSetRow? base inV).isSome ∧ ((past.waiting? base outV).isSome ∨
        (past.stored? base outV).isSome ∨ (past.resultSetRow? base outV).isSome) then 0
    else 1
  | .edge (.moniker outV inV) => missing (past.leadsTo? base outV) (past.monikerRow? base inV)
  | .edge (.packageInformation outV inV) =>
    missing (past.monikerRow? base outV) (past.packageRow? base inV)
  | .edge (.bucket _ outV inV) => missing (past.leadsTo? base outV) (some inV)
  | .edge (.hover outV inV) => missing (past.leadsTo? base outV) (past.hoverRow? base inV)
  | _ => 0

def danglingTotal (base : Store) : Past → Nat
  | [] => 0
  | e :: past => danglingTotal base past + dangling base past e

def target (base : Store) (past : Past) (bucket : Int) (property : Option String) (id : Int) :
    Target := ⟨bucket, past.kind? bucket, property, past.stored? base id⟩

/-- The targets of all item edges in their order. -/
def targets (base : Store) : Past → List Target
  | [] => []
  | .edge (.item outV inVs inV property) :: past =>
    targets base past ++ (Edge.itemTargets inVs inV).map (target base past outV property)
  | _ :: past => targets base past

variable {waiting : Int → Option UnclaimedRange} {document last id resultSet : Int}
  {ids : List Int} {range : UnclaimedRange} {list : List (Int × Range)}

theorem eraseDups_filter (p : Int → Bool) (ids : List Int) :
    (ids.filter p).eraseDups = ids.eraseDups.filter p := by
  -- Both sides drop the other copies of the first id, which makes the list shorter.
  induction hn : ids.length using Nat.strongRecOn generalizing ids with
  | ind n ih =>
    cases ids with
    | nil => rfl
    | cons id rest =>
      have hle := List.length_filter_le (fun j => !j == id) rest
      have hlt : (rest.filter fun j => !j == id).length < n := by
        rw [List.length_cons] at hn
        omega
      have hrest := ih _ hlt (rest.filter fun j => !j == id) rfl
      rw [List.filter_comm] at hrest
      cases hp : p id with
      | true =>
        rw [List.filter_cons_of_pos hp, List.eraseDups_cons, List.eraseDups_cons,
          List.filter_cons_of_pos hp, hrest]
      | false =>
        have hsame : (rest.filter p).filter (fun j => !j == id) = rest.filter p := by
          refine List.filter_eq_self.mpr fun j hj => ?_
          have hne : j ≠ id := by
            rintro rfl
            simp [hp] at hj
          simpa using hne
        rw [hsame] at hrest
        have hn : ¬ p id = true := by simp [hp]
        rw [List.filter_cons_of_neg hn, List.eraseDups_cons, List.filter_cons_of_neg hn, hrest]

theorem taken_cons_none (h : waiting id = none) :
    taken waiting document (id :: ids) = taken waiting document ids := by
  unfold taken
  rw [List.eraseDups_cons, List.filterMap_cons_none (by rw [h]; rfl), eraseDups_filter,
    List.filterMap_filter]
  refine List.filterMap_congr fun j _ => ?_
  by_cases hj : j = id
  · subst hj
    simp [h]
  · simp [hj]

theorem taken_cons_some (h : waiting id = some range) :
    taken waiting document (id :: ids) =
      (id, ⟨document, range.span, range.resultSet⟩) ::
        taken (fun j => if j = id then none else waiting j) document ids := by
  unfold taken
  rw [List.eraseDups_cons, List.filterMap_cons_some (by rw [h]; rfl), eraseDups_filter,
    List.filterMap_filter]
  congr 1
  refine List.filterMap_congr fun j _ => ?_
  by_cases hj : j = id
  · simp [hj]
  · simp [hj]

theorem length_taken_le (waiting : Int → Option UnclaimedRange) (document : Int)
    (ids : List Int) : (taken waiting document ids).length ≤ ids.length := by
  induction ids generalizing waiting with
  | nil => exact Nat.le_refl _
  | cons id rest ih =>
    cases h : waiting id with
    | none =>
      rw [taken_cons_none h]
      exact Nat.le_succ_of_le (ih waiting)
    | some range =>
      rw [taken_cons_some h]
      exact Nat.succ_le_succ (ih _)

theorem length_relink (id resultSet : Int) (list : List (Int × Range)) :
    (relink id resultSet list).length = list.length := by
  induction list with
  | nil => rfl
  | cons entry rest ih =>
    unfold relink
    split
    next => rfl
    next => exact congrArg Nat.succ ih

theorem relink_of_none (h : rowIn? last id list = none) : relink id resultSet list = list := by
  induction list with
  | nil => rfl
  | cons entry rest ih =>
    unfold rowIn? at h
    unfold relink
    split at h
    next => cases h
    next hne => rw [if_neg hne, ih h]

theorem rowIn?_relink (last id resultSet j : Int) (list : List (Int × Range)) :
    rowIn? last j (relink id resultSet list) =
      if j = id then
        (rowIn? last id list).map fun range => { range with resultSet := some resultSet }
      else rowIn? last j list := by
  induction list with
  | nil => simp [relink, rowIn?]
  | cons entry rest ih =>
    obtain ⟨k, range⟩ := entry
    by_cases hid : id = k
    · subst hid
      by_cases hj : j = id <;> simp [relink, rowIn?, hj]
    · by_cases hj : j = k
      · have hji : j ≠ id := fun he => hid (he.symm.trans hj)
        simp [relink, rowIn?, hid, hj, Ne.symm hid, length_relink]
      · simp only [relink, rowIn?, hid, hj, if_false, ih]

theorem rowIn?_le {range : ClaimedRange} (h : rowIn? last id list = some range) :
    last < range.row ∧ range.row ≤ last + list.length := by
  induction list with
  | nil => cases h
  | cons entry rest ih =>
    unfold rowIn? at h
    rw [List.length_cons]
    split at h
    next =>
      cases h
      constructor
      · change last < last + 1 + rest.length
        omega
      · change last + 1 + rest.length ≤ last + (rest.length + 1 : Nat)
        omega
    next =>
      have := ih h
      omega

end Past

end SymbolAtlas
