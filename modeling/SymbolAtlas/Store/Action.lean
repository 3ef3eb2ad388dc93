import SymbolAtlas.Error
import SymbolAtlas.Store.Basic

/-!
Actions on a store.  What an action that fails has done stays done, but inside a transaction a
failure undoes everything.
-/

namespace SymbolAtlas

/-- The terms on which a store is used.  `fails` says which rows cannot be touched, which may
depend on the state that a statement finds, and `commitFails` in which state a transaction
cannot be ended. -/
structure Access where
  writable : Bool := true
  lockedOut : Bool := false
  inTransaction : Bool := false
  clock : Int := 0
  fails : TableName → RowEvent → Store → Option StoreError := fun _ _ _ => none
  commitFails : Store → Option StoreError := fun _ => none

namespace Access

def writeRefusal? (access : Access) : Option StoreError :=
  if !access.writable then some (.engine .readOnly)
  else if access.lockedOut then some .locked
  else none

/-- Why a transaction cannot start.  There is only one at a time; an immediate one takes the
write lock at once, any other one with its first write. -/
def beginRefusal? (access : Access) (immediate : Bool) : Option StoreError :=
  if access.inTransaction then some (.engine .nestedTransaction)
  else if immediate then access.writeRefusal?
  else none

def permit (access : Access) (store : Store) : List Touch → Except StoreError Unit
  | [] => .ok ()
  | touch :: rest =>
    match access.fails touch.1 touch.2 store with
    | some e => .error e
    | none => access.permit store rest

end Access

/-- Something done to a store, with a result or a failure. -/
def Action (ε α : Type) : Type := Access → Store → Except ε α × Store

abbrev StoreAction : Type → Type := Action StoreError

namespace Action

variable {ε δ α β : Type}

def done (a : α) : Action ε α := fun _ store => (.ok a, store)

def fail (e : ε) : Action ε α := fun _ store => (.error e, store)

def andThen (x : Action ε α) (f : α → Action ε β) : Action ε β := fun access store =>
  match x access store with
  | (.ok a, store) => f a access store
  | (.error e, store) => (.error e, store)

instance : Monad (Action ε) where
  pure := done
  bind := andThen

def read (f : Store → α) : Action ε α := fun _ store => (.ok (f store), store)

def mapError (f : ε → δ) (x : Action ε α) : Action δ α := fun access store =>
  match x access store with
  | (.ok a, store) => (.ok a, store)
  | (.error e, store) => (.error (f e), store)

def attempt (x : Action ε α) : Action δ (Except ε α) := fun access store =>
  match x access store with
  | (r, store) => (.ok r, store)

/-- Does everything that `body` does or, if it fails or cannot be committed, nothing. -/
def transaction (immediate : Bool) (refused : StoreError → ε) (body : Action ε α) :
    Action ε α := fun access store =>
  match access.beginRefusal? immediate with
  | some e => (.error (refused e), store)
  | none =>
    match body { access with inTransaction := true } store with
    | (.ok a, after) =>
      match access.commitFails after with
      | some e => (.error (refused e), store)
      | none => (.ok a, after)
    | (.error e, _) => (.error e, store)

theorem transaction_error {immediate : Bool} {refused : StoreError → ε} {body : Action ε α}
    {access : Access} {store : Store} {e : ε}
    (h : (transaction immediate refused body access store).1 = .error e) :
    (transaction immediate refused body access store).2 = store := by
  unfold transaction at h ⊢
  split at h
  next => rfl
  next =>
    split at h
    next =>
      split at h
      next => rfl
      next => simp at h
    next => rfl

end Action

def statement {α : Type} (change : Access → Store → Except StoreError (α × Store)) :
    StoreAction α := fun access store =>
  match access.writeRefusal? with
  | some e => (.error e, store)
  | none =>
    match change access store with
    | .ok (a, after) => (.ok a, after)
    | .error e => (.error e, store)

def require (condition : Bool) (cause : EngineFailure) : Except StoreError Unit :=
  if condition then .ok () else .error (.engine cause)

/-- What came of a list of steps in one transaction: the results up to the failure, if there
was one. -/
structure Transcript (α : Type) where
  results : List α
  failure : Option StoreError

namespace Transcript

variable {α : Type}

def steps (access : Access) : List (StoreAction α) → Store → Transcript α × Store
  | [], store => (⟨[], none⟩, store)
  | step :: rest, store =>
    match step access store with
    | (.ok a, store) =>
      match steps access rest store with
      | (transcript, store) => ({ transcript with results := a :: transcript.results }, store)
    | (.error e, store) => (⟨[], some e⟩, store)

/-- Takes the steps in one immediate transaction, which fails in the end unless it is to be
committed.  A transaction that cannot start takes no step. -/
def run (commit : Bool) (list : List (StoreAction α)) : StoreAction (Transcript α) :=
  fun access store =>
    match access.beginRefusal? true with
    | some e => (.ok ⟨[], some e⟩, store)
    | none =>
      match steps { access with inTransaction := true } list store with
      | (⟨results, some e⟩, _) => (.ok ⟨results, some e⟩, store)
      | (⟨results, none⟩, after) =>
        if commit then
          match access.commitFails after with
          | some e => (.ok ⟨results, some e⟩, store)
          | none => (.ok ⟨results, none⟩, after)
        else (.ok ⟨results, some (.engine .injected)⟩, store)

end Transcript

end SymbolAtlas
