import SymbolAtlas.Settings.Basic
import SymbolAtlas.Search.Query
import SymbolAtlas.Store.Removal
import SymbolAtlas.Store.Search

/-!
Asking a store about a position or a name.  A position leads to the smallest range that covers
it, from there to a result set, and from there to what is asked for; if a step is missing, the
answer is empty.
-/

namespace SymbolAtlas

structure Place where
  run : Int
  uri : String
  position : Position

namespace Store

def resultSetAt? (s : Store) (place : Place) : Option ResultSet := do
  let range ← s.innermost? place.run place.uri place.position
  s.resultSets.get? (← range.range.resultSet)

def bucketAt? (s : Store) (place : Place) (kind : BucketKind) : Option Int :=
  (s.resultSetAt? place).bind fun r => r.bucket? kind

def definitionsAt (s : Store) (place : Place) : List Location :=
  match s.bucketAt? place .definitions with
  | some bucket => s.definitionsIn place.run bucket
  | none => []

/-- The references at a place; those flagged as definitions only on request. -/
def referencesAt (s : Store) (place : Place) (includeDefinitions : Bool) : List Location :=
  match s.bucketAt? place .references with
  | some bucket => s.referencesIn place.run bucket includeDefinitions
  | none => []

def targetsAt (s : Store) (place : Place) (kind : BucketKind) : List Location :=
  match s.bucketAt? place kind with
  | some bucket => s.contentsOf place.run bucket
  | none => []

def typeDefinitionsAt (s : Store) (place : Place) : List Location :=
  s.targetsAt place .typeDefinition

def implementationsAt (s : Store) (place : Place) : List Location :=
  s.targetsAt place .implementation

def hoverAt? (s : Store) (place : Place) : Option String := do
  let hover ← s.hovers.get? (← (← s.resultSetAt? place).hover)
  return hover.contents

def monikerAt? (s : Store) (place : Place) : Option MonikerDetails := do
  s.monikerDetails? (← (← s.resultSetAt? place).moniker)

/-- Searches symbols by name.  A limit of zero is refused, and a query without terms finds
nothing. -/
def searchByName (s : Store) (settings : QuerySettings) (run : Int) (query : String)
    (limit : Option Nat) : Except QueryError (List SymbolMatch) :=
  if limit = some 0 then .error (.invalid "search limit must be greater than zero")
  else
    match queryTerms query with
    | [] => .ok []
    | terms => .ok (s.search run terms (settings.limitFor limit))

end Store

def discardRun (run : Int) : Action QueryError Deletion := (deleteRun run).mapError .storage

end SymbolAtlas
