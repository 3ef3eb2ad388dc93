import SymbolAtlas.Position
import SymbolAtlas.Role
import SymbolAtlas.Store.Table

/-!
The rows of a store.  Everything but the symbols belongs to one run, and buckets are known by the
numbers that the dump of the run gave them.
-/

namespace SymbolAtlas

structure Run where
  repo : Option String
  commit : Option String
  projectRoot : Option String := none
  lsifVersion : Option String := none
  createdAt : Int
deriving DecidableEq

structure RunMeta where
  repo : Option String := none
  commit : Option String := none
  createdAt : Option Int := none
deriving DecidableEq

structure Document where
  run : Int
  uri : String
  languageId : Option String
deriving DecidableEq

structure Hover where
  run : Int
  contents : String
deriving DecidableEq

structure Package where
  run : Int
  name : String
  version : Option String
  manager : Option String
deriving DecidableEq

structure Moniker where
  run : Int
  scheme : String
  identifier : String
  kind : Option String
  package : Option Int
deriving DecidableEq

/-- A symbol, shared by all runs that have a moniker for it. -/
structure Symbol where
  scheme : String
  identifier : String
  qualifiedName : String
  kind : Option String
deriving DecidableEq

structure MonikerLink where
  moniker : Int
  symbol : Int
deriving DecidableEq

structure ResultSet where
  run : Int
  definitions : Option Int := none
  references : Option Int := none
  typeDefinition : Option Int := none
  implementation : Option Int := none
  hover : Option Int := none
  moniker : Option Int := none
deriving DecidableEq

namespace ResultSet

def bucket? (r : ResultSet) : BucketKind → Option Int
  | .definitions => r.definitions
  | .references => r.references
  | .typeDefinition => r.typeDefinition
  | .implementation => r.implementation

def setBucket (r : ResultSet) (bucket : Int) : BucketKind → ResultSet
  | .definitions => { r with definitions := some bucket }
  | .references => { r with references := some bucket }
  | .typeDefinition => { r with typeDefinition := some bucket }
  | .implementation => { r with implementation := some bucket }

end ResultSet

structure Range where
  document : Int
  span : Span
  resultSet : Option Int
deriving DecidableEq

structure Item where
  run : Int
  bucket : Int
  document : Int
  range : Int
deriving DecidableEq

structure ReferenceItem extends Item where
  isDefinition : Bool
deriving DecidableEq

structure Occurrence where
  run : Int
  symbol : Int
  document : Int
  range : Int
  role : Role
deriving DecidableEq

namespace Occurrence

/-- Whether two occurrences are of the same symbol in the same place, whatever their roles. -/
def samePlace (a b : Occurrence) : Bool :=
  a.run == b.run && a.symbol == b.symbol && a.document == b.document && a.range == b.range

end Occurrence

structure IndexEntry where
  symbol : Int
  qualifiedName : String
  identifier : String
deriving DecidableEq

/-- The tables of a store and its search index. -/
structure Store where
  runs : Table Run := {}
  documents : Table Document := {}
  hovers : Table Hover := {}
  packages : Table Package := {}
  monikers : Table Moniker := {}
  symbols : Table Symbol := {}
  links : List MonikerLink := []
  resultSets : Table ResultSet := {}
  ranges : Table Range := {}
  definitionItems : Table Item := {}
  referenceItems : Table ReferenceItem := {}
  occurrences : List Occurrence := []
  searchIndex : List IndexEntry := []
deriving DecidableEq

namespace Store

def empty : Store := {}

def symbolOf? (s : Store) (moniker : Int) : Option Int :=
  (s.links.find? fun l => l.moniker == moniker).map MonikerLink.symbol

def symbolNamed? (s : Store) (scheme identifier : String) : Option (Int × Symbol) :=
  s.symbols.rows.find? fun r => r.2.scheme == scheme && r.2.identifier == identifier

end Store

inductive TableName where
  | runs
  | documents
  | hovers
  | packages
  | monikers
  | symbols
  | links
  | resultSets
  | ranges
  | definitionItems
  | referenceItems
  | occurrences
deriving DecidableEq

namespace TableName

def all : List TableName :=
  [runs, documents, hovers, packages, monikers, symbols, links, resultSets, ranges,
    definitionItems, referenceItems, occurrences]

def name : TableName → String
  | runs => "index_runs"
  | documents => "documents"
  | hovers => "hover_results"
  | packages => "package_information"
  | monikers => "monikers"
  | symbols => "symbols"
  | links => "moniker_symbols"
  | resultSets => "result_sets"
  | ranges => "ranges"
  | definitionItems => "definitions_items"
  | referenceItems => "references_items"
  | occurrences => "occurrences"

def ofName? (text : String) : Option TableName := all.find? fun t => t.name == text

end TableName

inductive RowEvent where
  | insert
  | update
  | delete
deriving DecidableEq

namespace RowEvent

def all : List RowEvent := [insert, update, delete]

def name : RowEvent → String
  | insert => "insert"
  | update => "update"
  | delete => "delete"

def ofName? (text : String) : Option RowEvent := all.find? fun e => e.name == text

end RowEvent

abbrev Touch := TableName × RowEvent

end SymbolAtlas
