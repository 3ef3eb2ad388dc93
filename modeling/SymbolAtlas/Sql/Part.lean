import SymbolAtlas.Sql.Insertion

/-!
The tables that the parts of a virtual table are kept in.  They are tables like others, and can be
missing, look otherwise or refuse rows.
-/

namespace SymbolAtlas.Sql

def partName (name suffix : String) : String := name ++ "_" ++ suffix

def Row.text (row : Row) (column : String) : String :=
  ((row.value? column).map Value.render).getD ""

def mayHaveWords (s : String) : Bool := s.toList.any fun c => c.isAlphanum || 128 ≤ c.toNat

namespace Outcome

/-- What is left of it when something in a part cannot be done at all. -/
def logicError : Outcome := .refused "SQL logic error"

def constructorFailed (name : String) : Outcome := .refused s!"vtable constructor failed: {name}"

/-- What is left of it when a change of a row in a part ends early. -/
def ofPart : Outcome → Outcome
  | .refused "datatype mismatch" => .refused "datatype mismatch"
  | .refused _ => .refused "constraint failed"
  | .skipped => .skipped

def refusal? : Option Outcome → Option Outcome
  | some .skipped => none
  | outcome => outcome

end Outcome

namespace Catalog

def clearPart? (c : Catalog) (contents : Contents) (table : String) : Option Outcome :=
  match c.relation? table with
  | some (.table t) =>
    if (TableDef.changeFault? c mostTriggered "DELETE" t).isSome then some .logicError
    else Outcome.refusal? ((t.clearOutcome? c contents).map .ofPart)
  | _ => some .logicError

/-- How it ends early to put a row into an empty part, in the given columns or in all. -/
def writePart? (c : Catalog) (table : String) (columns : Option (List String))
    (values : List Value) (resolution : Option String) : Option Outcome :=
  match c.relation? table with
  | some (.table t) =>
    let names := columns.getD t.plainColumns
    if names.length ≠ values.length || (t.insertFault? c table names).isSome then
      some .logicError
    else (t.insertOutcome? c (fun _ => []) ⟨names.zip values, resolution⟩).map .ofPart
  | _ => some .logicError

/-- What keeps columns of a relation from being read, which are told with a label before them.  The
number of a row counts as one of the columns of a table that has numbers. -/
def readFault? (c : Catalog) (table label : String) (columns : List String) : Option String :=
  match c.relation? table with
  | none => some s!"no such table: main.{table}"
  | some r =>
    let (fault, isNumbered) := match r with
      | .table t => (none, !t.isClustered)
      | .view v => (v.fault? c, false)
      | .virtualTable _ => (none, true)
    fault.or ((c.columnsOf? r).bind fun known =>
      (columns.find? fun column => !known.any (sameName column)
        && !(isNumbered && rowNames.contains column.toLower)).map
          fun column => s!"no such column: {label}{column}")

def rowsOf (c : Catalog) (contents : Contents) (table : String) : List Row :=
  match c.relation? table with
  | some (.table t) => contents t
  | some (.view v) => v.rows?.getD []
  | _ => []

end Catalog

end SymbolAtlas.Sql
