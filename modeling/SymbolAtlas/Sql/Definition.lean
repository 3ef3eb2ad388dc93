import SymbolAtlas.Sql.Token

/-!
What statements of SQL define: tables, views, indexes, triggers and virtual tables, and the
expressions in them as far as they matter.
-/

namespace SymbolAtlas.Sql

/-- Names are the same whatever the case of their letters. -/
def sameName (a b : String) : Bool := a.toLower = b.toLower

structure CallForm where
  isWindowed : Bool := false
  isFiltered : Bool := false

/-- Expressions.  Of a query only its presence is kept.  A name in quotes comes with its first
quote. -/
inductive Expr where
  | null
  | number (text : String)
  | text (value : String)
  | blob (text : String)
  | parameter
  | name (parts : List String) (quote : Option Char)
  | query
  | apply (op : String) (args : List Expr)
  | call (function : String) (args : List Expr) (form : CallForm)

namespace Expr

def withoutCollation : Expr → Expr
  | apply "COLLATE" (e :: _) => e.withoutCollation
  | e => e

def collation? : Expr → Option String
  | apply "COLLATE" [_, text collation] => some collation
  | _ => none

def asName : Expr → Expr
  | text value => name [value] none
  | apply "COLLATE" [text value, collation] => apply "COLLATE" [name [value] none, collation]
  | e => e

def isQuery : Expr → Bool
  | query => true
  | _ => false

def width : Expr → Nat
  | apply "row" args => args.length
  | _ => 1

end Expr

/-- A column of a result, with its name if it has one; a star stands for columns that are not
listed. -/
structure ResultColumn where
  value : Option Expr
  name : Option String

structure Selection where
  results : List ResultColumn
  condition : Option Expr
  tables : List (Option String)

structure KeyTerm where
  value : Expr
  nulls : Option String := none
  place : Nat := 0

/-- A column of a table.  One that is computed may be stored all the same. -/
structure ColumnDef where
  name : String
  type : String := ""
  collation : String := "BINARY"
  isNotNull : Bool := false
  nullResolution : Option String := none
  default : Option Expr := none
  generated : Option Expr := none
  isStored : Bool := true
  isPrimary : Bool := false

structure KeyDef where
  columns : List (String × String)
  resolution : Option String := none
  isPrimary : Bool := false

structure CheckDef where
  label : String
  condition : Expr

structure ReferenceDef where
  columns : List String
  table : String
  targets : List String

/-- A table with rows of its own.  Its keys stand in the order in which they are given; a single
primary key of integers is no key but the number of the row. -/
structure TableDef where
  name : String
  columns : List ColumnDef := []
  keys : List KeyDef := []
  hasPrimary : Bool := false
  rowNumber : Option String := none
  counts : Bool := false
  checks : List CheckDef := []
  references : List ReferenceDef := []
  isStrict : Bool := false
  isClustered : Bool := false

namespace TableDef

def column? (t : TableDef) (name : String) : Option ColumnDef :=
  t.columns.find? fun c => sameName c.name name

def hasColumn (t : TableDef) (name : String) : Bool := (t.column? name).isSome

def modifyLast (t : TableDef) (f : ColumnDef → ColumnDef) : TableDef :=
  { t with columns := t.columns.dropLast ++ (t.columns.drop (t.columns.length - 1)).map f }

def modifyColumn (t : TableDef) (name : String) (f : ColumnDef → ColumnDef) : TableDef :=
  { t with columns := t.columns.map fun c => if sameName c.name name then f c else c }

def keyIndexes (t : TableDef) : List String :=
  (List.range t.keys.length).map fun k => s!"sqlite_autoindex_{t.name}_{k + 1}"

end TableDef

inductive TriggerTime where
  | before
  | after
  | instead
deriving DecidableEq

inductive StepKind where
  | insert
  | update
  | delete
  | select
deriving DecidableEq

/-- A step of a trigger: the table that it changes, the columns that it names there and what it
assigns to them, under which condition it does so and what it does about conflicts; the tables that
it reads, and the selection that it is or takes its rows from. -/
structure TriggerStep where
  kind : StepKind
  target : Option String := none
  columns : List String := []
  assigned : List (List String × Expr) := []
  condition : Option Expr := none
  resolution : Option String := none
  sources : List String := []
  selection : Option Selection := none

structure TriggerDef where
  name : String
  table : String
  time : TriggerTime
  event : String
  condition : Option Expr := none
  steps : List TriggerStep := []

structure VirtualDef where
  name : String
  engine : String
  arguments : List String

/-- A view: the tables that it reads, its columns as far as they are listed, and its query if that
is one selection. -/
structure ViewDef where
  name : String
  sources : List String
  columns : Option (List String)
  selection : Option Selection

inductive Relation where
  | table (t : TableDef)
  | view (v : ViewDef)
  | virtualTable (t : VirtualDef)

namespace Relation

def name : Relation → String
  | table t => t.name
  | view v => v.name
  | virtualTable t => t.name

def kind : Relation → String
  | view _ => "view"
  | _ => "table"

end Relation

inductive Definition where
  | relation (r : Relation)
  | index (name table : String) (key : Option KeyDef)
  | trigger (t : TriggerDef)
  /-- What is to be created is there already. -/
  | nothing

end SymbolAtlas.Sql
