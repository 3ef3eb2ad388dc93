import SymbolAtlas.Sql.Part
import SymbolAtlas.Sql.Statement

/-!
Tables of boxes: each row has a number, the ends of an interval in each of some dimensions, and
perhaps further columns.
-/

namespace SymbolAtlas.Sql

/-- A table of boxes as its arguments describe it. -/
structure BoxTable where
  columns : List String
  ends : Nat
  further : Nat

namespace BoxTable

def nameOf (argument : String) : String :=
  ((tokens argument).head?.map (·.text)).getD ""

def further? (argument : String) : Option String :=
  match argument.toList with
  | '+' :: r => some (String.ofList r)
  | _ => none

def declared (written : List String) : Except String (List String) :=
  match Setting.read ⟨{}, none, "CREATE TABLE x(" ++ ",".intercalate written ++ ");"⟩ with
  | .ok (.relation (.table t)) => .ok (t.columns.map (·.name))
  | .ok _ => .ok []
  | .error complaint => .error complaint.message

def ofArguments (arguments : List String) : Except String BoxTable := do
  let few := "Too few columns for an rtree table"
  let many := "Too many columns for an rtree table"
  let ends := ((arguments.drop 1).takeWhile fun a => (further? a).isNone).length
  let rest := arguments.drop (ends + 1)
  if arguments.length < 3 then throw few
  if 100 < arguments.length then throw many
  if rest.any fun a => (further? a).isNone then throw "Auxiliary rtree columns must be last"
  let columns ← declared (arguments.map fun a => nameOf ((further? a).getD a))
  if ends < 2 then throw few
  if 10 < ends then throw many
  if ends % 2 ≠ 0 then throw "Wrong number of columns for an rtree table"
  return ⟨columns, ends, rest.length⟩

def leastSize : Nat := 448

def topSize (c : Catalog) (contents : Contents) (name : String) : Nat :=
  let top := (c.rowsOf contents (partName name "node")).find? fun row =>
    row.value? "nodeno" = some (.integer 1)
  match top.bind (·.value? "data") with
  | some (.blob bytes) => bytes.length
  | some v => v.render.length
  | none => 0

def writeFault? (c : Catalog) (table : String) : Option String :=
  match c.relation? table with
  | some (.table t) =>
    let count := t.plainColumns.length
    if count = 2 then TableDef.changeFault? c mostTriggered "INSERT" t
    else some s!"table {table} has {count} columns but 2 values were supplied"
  | some (.view _) => some s!"cannot modify {table} because it is a view"
  | _ => some s!"no such table: main.{table}"

/-- What keeps the parts of a table of boxes from being used.  Where there are further columns only
these count. -/
def partsFault? (b : BoxTable) (c : Catalog) (name : String) : Option String :=
  let node := partName name "node"
  let numbers := partName name "rowid"
  let parents := partName name "parent"
  if b.further ≠ 0 then
    c.readFault? numbers "" ((List.range b.further).map fun k => s!"a{k}")
  else
    (writeFault? c node)
    |>.or (c.readFault? numbers "" ["nodeno", "rowid"])
    |>.or (writeFault? c numbers)
    |>.or (c.readFault? parents "" ["parentnode", "nodeno"])
    |>.or (writeFault? c parents)

def useFault? (b : BoxTable) (c : Catalog) (contents : Contents) (name : String) :
    Option String :=
  let node := partName name "node"
  (c.readFault? node "" ["data", "nodeno"])
  |>.or (if topSize c contents name < leastSize then
      some s!"undersize RTree blobs in \"{node}\""
    else none)
  |>.or (b.partsFault? c name)

/-- What keeps a text out of a column of a table of boxes. -/
def insertFault? (b : BoxTable) (c : Catalog) (contents : Contents) (name column : String) :
    Option String :=
  (b.useFault? c contents name).or
    (if b.columns.any (sameName column) then none
      else some s!"table {name} has no column named {column}")

end BoxTable

end SymbolAtlas.Sql
