import SymbolAtlas.Ingest.Run
import SymbolAtlas.Navigate
import SymbolAtlas.Store.Schema

/-!
A session with one store.  A store in memory has a single connection for everything; one on disk
has readers that cannot write, keeps its rows when it is reopened, and can be locked by someone
else.
-/

namespace SymbolAtlas

inductive Connection where
  | reader
  | writer
deriving DecidableEq

/-- An open store with its settings, and what stands in the way of writing to it. -/
structure Session where
  onDisk : Bool
  settings : Settings := {}
  readers : Nat := 0
  database : Database := .fresh
  locked : Bool := false
  faults : List Touch := []

namespace Session

def readersFor (onDisk : Bool) (settings : Settings) : Nat :=
  if onDisk then settings.storage.readers else 0

/-- Whether a store can be opened with the settings.  Only on disk is there anyone to wait for. -/
def canOpen (onDisk : Bool) (settings : Settings) : Bool :=
  !onDisk || settings.storage.canWait

def start? (onDisk : Bool) (settings : Settings) : Option Session :=
  if canOpen onDisk settings then
    some { onDisk := onDisk, settings := settings, readers := readersFor onDisk settings }
  else none

/-- Closes the store and opens it again; none if it cannot be opened with the settings that it
has by now.  A store in memory is then a new one. -/
def reopen? (s : Session) : Option Session :=
  if canOpen s.onDisk s.settings then
    let s := { s with readers := readersFor s.onDisk s.settings, locked := false }
    some (if s.onDisk then s else { s with database := .fresh, faults := [] })
  else none

def fileName? (s : Session) : Option String := if s.onDisk then some "nav.db" else none

def lock (s : Session) : Session := { s with locked := s.onDisk }

def unlock (s : Session) : Session := { s with locked := false }

/-- From now on the given rows cannot be touched. -/
def fault (s : Session) (touch : Touch) : Session :=
  { s with faults := touch :: s.faults.filter fun t => t ≠ touch }

def unfault (s : Session) (touch : Touch) : Session :=
  { s with faults := s.faults.filter fun t => t ≠ touch }

def access (s : Session) (connection : Connection) (clock : Int) : Access where
  writable := !s.onDisk || connection == .writer
  lockedOut := s.locked
  clock := clock
  fails := fun table event _ =>
    if s.faults.contains (table, event) then some (.engine .blocked) else none

def store (s : Session) : Store := s.database.store

def perform {ε α : Type} (s : Session) (connection : Connection) (clock : Int)
    (action : Action ε α) : Except ε α × Session :=
  match action (s.access connection clock) s.store with
  | (result, store) => (result, { s with database := { s.database with store := store } })

end Session

end SymbolAtlas
