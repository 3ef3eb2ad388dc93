import SymbolAtlas.Store.Action

/-!
Taking a run out of a store.  What belongs to the run goes with it, links from what stays to
what goes are cut, and in the end the symbols that no moniker is linked to go as well.
-/

namespace SymbolAtlas

namespace Store

/-- The documents, ranges and so on that go with a run. -/
def losesDocument (s : Store) (run id : Int) : Bool := s.documents.holds id fun d => d.run == run

def losesRange (s : Store) (run id : Int) : Bool :=
  s.ranges.holds id fun r => s.losesDocument run r.document

def losesHover (s : Store) (run id : Int) : Bool := s.hovers.holds id fun h => h.run == run

def losesPackage (s : Store) (run id : Int) : Bool := s.packages.holds id fun p => p.run == run

def losesMoniker (s : Store) (run id : Int) : Bool := s.monikers.holds id fun m => m.run == run

def losesResultSet (s : Store) (run id : Int) : Bool :=
  s.resultSets.holds id fun r => r.run == run

def losesItem (s : Store) (run : Int) (item : Item) : Bool :=
  item.run == run || s.losesDocument run item.document || s.losesRange run item.range

def losesOccurrence (s : Store) (run : Int) (o : Occurrence) : Bool :=
  o.run == run || s.losesDocument run o.document || s.losesRange run o.range

/-- Cuts a link to a row that goes. -/
def cut (loses : Int → Bool) (link : Option Int) : Option Int := link.filter fun id => !loses id

def withoutRun (s : Store) (run : Int) : Store :=
  { s with
    runs := s.runs.keep fun id _ => id != run
    documents := s.documents.keep fun _ d => d.run != run
    hovers := s.hovers.keep fun _ h => h.run != run
    packages := s.packages.keep fun _ p => p.run != run
    monikers := (s.monikers.keep fun _ m => m.run != run).modifyAll fun m =>
      { m with package := cut (s.losesPackage run) m.package }
    links := s.links.filter fun l => !s.losesMoniker run l.moniker
    resultSets := (s.resultSets.keep fun _ r => r.run != run).modifyAll fun r =>
      { r with
        hover := cut (s.losesHover run) r.hover
        moniker := cut (s.losesMoniker run) r.moniker }
    ranges := (s.ranges.keep fun _ r => !s.losesDocument run r.document).modifyAll fun r =>
      { r with resultSet := cut (s.losesResultSet run) r.resultSet }
    definitionItems := s.definitionItems.keep fun _ i => !s.losesItem run i
    referenceItems := s.referenceItems.keep fun _ i => !s.losesItem run i.toItem
    occurrences := s.occurrences.filter fun o => !s.losesOccurrence run o }

/-- The events that taking a run out causes.  Links of ranges are cut before the ranges go; all
other links are cut only in rows that stay. -/
def removalTouches (s : Store) (run : Int) : List Touch :=
  [ (s.runs.has run, TableName.runs, RowEvent.delete),
    (s.occurrences.any (s.losesOccurrence run), .occurrences, .delete),
    (s.referenceItems.any fun i => s.losesItem run i.toItem, .referenceItems, .delete),
    (s.definitionItems.any (s.losesItem run), .definitionItems, .delete),
    (s.resultSets.any fun r => r.run == run, .resultSets, .delete),
    (s.ranges.any fun r => r.resultSet.any (s.losesResultSet run), .ranges, .update),
    (s.monikers.any fun m => m.run == run, .monikers, .delete),
    (s.links.any fun l => s.losesMoniker run l.moniker, .links, .delete),
    (s.resultSets.any fun r => r.run != run && (r.moniker.any (s.losesMoniker run)
      || r.hover.any (s.losesHover run)), .resultSets, .update),
    (s.packages.any fun p => p.run == run, .packages, .delete),
    (s.monikers.any fun m => m.run != run && m.package.any (s.losesPackage run),
      .monikers, .update),
    (s.hovers.any fun h => h.run == run, .hovers, .delete),
    (s.documents.any fun d => d.run == run, .documents, .delete),
    (s.ranges.any fun r => s.losesDocument run r.document, .ranges, .delete) ].filterMap
    fun t => if t.1 then some t.2 else none

def isLinked (s : Store) (symbol : Int) : Bool := s.links.any fun l => l.symbol == symbol

/-- Whether a number is that of a symbol that no moniker is linked to. -/
def isOrphan (s : Store) (symbol : Int) : Bool := s.symbols.has symbol && !s.isLinked symbol

def pruned (s : Store) : Store :=
  { s with
    symbols := s.symbols.keep fun id _ => s.isLinked id
    occurrences := s.occurrences.filter fun o => !s.isOrphan o.symbol
    searchIndex := s.searchIndex.filter fun e => !s.isOrphan e.symbol }

def orphanCount (s : Store) : Nat := s.symbols.rows.countP fun r => !s.isLinked r.1

def pruneTouches (s : Store) : List Touch :=
  [ (s.symbols.rows.any fun r => !s.isLinked r.1, TableName.symbols, RowEvent.delete),
    (s.occurrences.any fun o => s.isOrphan o.symbol, .occurrences, .delete) ].filterMap
    fun t => if t.1 then some t.2 else none

end Store

def pruneSymbols : StoreAction Nat := statement fun access store => do
  access.permit store store.pruneTouches
  return (store.orphanCount, store.pruned)

def removeRun (run : Int) : StoreAction Bool := statement fun access store => do
  if !store.runs.has run then return (false, store)
  access.permit store (store.removalTouches run)
  return (true, store.withoutRun run)

structure Deletion where
  run : Int
  symbolsPruned : Nat
deriving DecidableEq

def deleteRun (run : Int) : StoreAction Deletion := Action.transaction false id do
  if ← removeRun run then
    return ⟨run, ← pruneSymbols⟩
  else
    Action.fail (.notFound "index run" run)

end SymbolAtlas
