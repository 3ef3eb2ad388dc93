import SymbolAtlas.Sql.Definition

/-!
The catalog of a database: what its schema defines, in the order in which it is defined.
-/

namespace SymbolAtlas.Sql

structure IndexDef where
  name : String
  table : String
  root : Nat
  key : Option KeyDef := none

/-- The relations of a database, each with the page of its tree, its indexes and its triggers. -/
structure Catalog where
  relations : List (Relation × Nat) := []
  indexes : List IndexDef := []
  triggers : List TriggerDef := []

def schemaTable : TableDef where
  name := "sqlite_master"
  columns := ["type", "name", "tbl_name", "rootpage", "sql"].map fun name => { name }

namespace Catalog

def entry? (c : Catalog) (name : String) : Option (Relation × Nat) :=
  if sameName name "sqlite_master" || sameName name "sqlite_schema" then
    some (.table schemaTable, 1)
  else c.relations.find? fun r => sameName r.1.name name

def relation? (c : Catalog) (name : String) : Option Relation := (c.entry? name).map (·.1)

def hasRelation (c : Catalog) (name : String) : Bool := (c.relation? name).isSome

def index? (c : Catalog) (name : String) : Option IndexDef :=
  c.indexes.find? fun i => sameName i.name name

def hasIndex (c : Catalog) (name : String) : Bool := (c.index? name).isSome

def hasTrigger (c : Catalog) (name : String) : Bool := c.triggers.any fun t => sameName t.name name

/-- Whether another index of the table has its tree in the same page. -/
def sharesRoot (c : Catalog) (i : IndexDef) : Bool :=
  c.indexes.any fun j => sameName j.table i.table && !sameName j.name i.name && j.root = i.root

/-- The catalog with something more defined, whose tree is in the given page.  The pages of the
indexes of keys are told later, except where the table is the tree of its primary key. -/
def add (c : Catalog) (root : Nat) : Definition → Catalog
  | .relation r =>
    let indexes := match r with
      | .table t => (t.keys.zip t.keyIndexes).map fun (k, name) =>
          (⟨name, t.name, if t.isClustered && k.isPrimary then root else 0, some k⟩ : IndexDef)
      | _ => []
    { c with relations := c.relations ++ [(r, root)], indexes := c.indexes ++ indexes }
  | .index name table key => { c with indexes := c.indexes ++ [⟨name, table, root, key⟩] }
  | .trigger t => { c with triggers := c.triggers ++ [t] }
  | .nothing => c

def setRoot (c : Catalog) (name : String) (root : Nat) : Catalog :=
  { c with indexes := c.indexes.map fun i => if sameName i.name name then { i with root } else i }

end Catalog

namespace ViewDef

def mostNested : Nat := 100

/-- The columns of a view, if they can be told: those that it lists, and where it lists all columns
of the one relation that it reads, those. -/
def columnsIn? (v : ViewDef) (c : Catalog) : (fuel : Nat) → Option (List String)
  | 0 => v.columns
  | fuel + 1 => v.columns.or do
    let q ← v.selection
    let source ← if v.sources.length = 1 then v.sources.head? else none
    let own ← match c.relation? source with
      | some (.table t) => some (t.columns.map (·.name))
      | some (.view w) => w.columnsIn? c fuel
      | _ => none
    some (q.results.flatMap fun r => if r.value.isNone then own else r.name.toList)

end ViewDef

namespace Catalog

def columnsOf? (c : Catalog) (relation : Relation) : Option (List String) :=
  match relation with
  | .table t => some (t.columns.map (·.name))
  | .view v => v.columnsIn? c ViewDef.mostNested
  | .virtualTable _ => none

end Catalog

end SymbolAtlas.Sql
