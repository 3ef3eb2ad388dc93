import SymbolAtlas.Settings.Basic
import SymbolAtlas.Number.Bounds
import SymbolAtlas.Search.Query
import SymbolAtlas.Store.Search
import SymbolAtlas.Store.Write

/-!
The schema of a database grows by numbered migrations.  The version says which of them are taken
for done, and after an interruption it can be wrong.
-/

namespace SymbolAtlas

/-- A database whose schema may be incomplete.  The search index can exist without following
the symbols. -/
structure Database where
  version : Int := 0
  hasGraph : Bool := false
  hasSearchIndex : Bool := false
  followsSymbols : Bool := false
  hasOccurrences : Bool := false
  store : Store := {}

inductive Migration where
  | graph
  | symbolSearch
  | occurrences
deriving DecidableEq

namespace Migration

def all : List Migration := [graph, symbolSearch, occurrences]

def number : Migration → Nat
  | graph => 1
  | symbolSearch => 2
  | occurrences => 3

def ofNumber? (n : Int) : Option Migration := all.find? fun m => (m.number : Int) == n

def latest : Nat := 3

end Migration

namespace Store

def reindexed (s : Store) : Store :=
  { s with searchIndex := s.symbols.rows.map fun r => ⟨r.1, r.2.qualifiedName, r.2.identifier⟩ }

end Store

namespace Database

/-- Applies a migration, whatever the version is.  Without symbols the search index is created
but cannot follow them. -/
def apply (db : Database) : Migration → Option EngineFailure × Database
  | .graph => (none, { db with hasGraph := true })
  | .symbolSearch =>
    if db.hasGraph then
      (none, { db with
        hasSearchIndex := true, followsSymbols := true, store := db.store.reindexed })
    else (some (.missingTable "main.symbols"), { db with hasSearchIndex := true })
  | .occurrences => (none, { db with hasOccurrences := true })

/-- Sets the version, which is kept in 32 bits with a sign; a number that does not fit into them
sets it to zero. -/
def setVersion (db : Database) (n : Int) : Database :=
  { db with version := if -(int32Bound : Int) ≤ n ∧ n < int32Bound then n else 0 }

def versionNumber (db : Database) : Except StoreError Nat :=
  match db.version with
  | .ofNat n => .ok n
  | version => .error (.engine (.versionOutOfRange version))

/-- Applies migrations in order and leaves the version as it is; the first failure ends it. -/
def applyUncounted (db : Database) : List Migration → Except StoreError Database
  | [] => .ok db
  | m :: rest =>
    match db.apply m with
    | (some cause, _) => .error (.engine cause)
    | (none, db) => db.applyUncounted rest

/-- Applies migrations in order; the first failure ends it, and the version tells how far it
came.  How a single migration is carried out is left open. -/
def applyAll (carryOut : Database → Migration → Option EngineFailure × Database)
    (db : Database) : List Migration → Except StoreError Unit × Database
  | [] => (.ok (), db)
  | m :: rest =>
    match carryOut db m with
    | (some cause, db) => (.error (.migrationFailed m.number cause.message), db)
    | (none, db) => { db with version := m.number }.applyAll carryOut rest

def due (version : Nat) : List Migration := Migration.all.filter fun m => version < m.number

def migrateBy (carryOut : Database → Migration → Option EngineFailure × Database)
    (db : Database) : Except StoreError Unit × Database :=
  match db.versionNumber with
  | .error e => (.error (.migrationFailed 0 e.message), db)
  | .ok version => db.applyAll carryOut (due version)

def migrate (db : Database) : Except StoreError Unit × Database := db.migrateBy apply

def fresh : Database := ({} : Database).migrate.2

def internSymbol (db : Database) (scheme identifier : String) (kind : Option String) :
    Except StoreError Int × Database :=
  if db.hasGraph then
    match SymbolAtlas.internSymbol scheme identifier kind {} db.store with
    | (result, store) =>
      (result, { db with store :=
        if db.followsSymbols then store else { store with searchIndex := db.store.searchIndex } })
  else (.error (.engine (.missingTable "symbols")), db)

def search (db : Database) (run : Int) (terms : List String) (limit : Nat) :
    Except StoreError (List SymbolMatch) :=
  if !db.hasSearchIndex then .error (.engine (.missingTable "symbol_fts"))
  else if !db.hasGraph then .error (.engine (.missingTable "symbols"))
  else if !db.hasOccurrences then .error (.engine (.missingTable "occurrences"))
  else .ok (db.store.search run terms limit)

def search? (db : Database) (run : Int) (query : String) (limit : Nat) :
    Option (Except StoreError (List SymbolMatch)) :=
  match queryTerms query with
  | [] => none
  | terms => some (db.search run terms limit)

end Database

end SymbolAtlas
