import SymbolAtlas.Sql.Catalog
import SymbolAtlas.Sql.Value

/-!
What triggers speak of and what they refuse.  All of a trigger is read before any row is touched,
so what it speaks of has to be there.
-/

namespace SymbolAtlas.Sql

/-- How a change of a row ends early. -/
inductive Outcome where
  | refused (message : String)
  | skipped

def isImplied (name : String) : Bool :=
  ["json_each", "json_tree", "dbstat"].any (sameName name)
    || sameName (String.ofList (name.toList.take 7)) "pragma_"

namespace Catalog

def missingTable? (c : Catalog) (tables : List String) : Option String :=
  (tables.find? fun name => !c.hasRelation name && !isImplied name).map
    fun name => s!"no such table: main.{name}"

def triggersOn (c : Catalog) (event table : String) (time : TriggerTime) : List TriggerDef :=
  (c.triggers.filter fun t => sameName t.table table && t.time = time && t.event = event).reverse

/-- The triggers that act on the rows of a table, in the order in which they are read. -/
def rowTriggers (c : Catalog) (event table : String) : List TriggerDef :=
  c.triggersOn event table .before ++ c.triggersOn event table .after

end Catalog

namespace Expr

mutual

/-- The first name or function in an expression that means nothing, where some names are known. -/
def unmeant? (isKnown : List String → Bool) : Expr → Option String
  | name parts quote =>
    let isLiteral := parts.length = 1 && (quote = some '\x22'
      || (quote = none && parts.all fun p => ["true", "false"].contains p.toLower))
    if isKnown parts || isLiteral then none
    else some ("no such column: " ++ ".".intercalate parts)
  | call function args _ =>
    match callee function args.length with
    | .unknown => some s!"no such function: {function}"
    | .wrongCount _ => some s!"wrong number of arguments to function {function}()"
    | .found _ => unmeantAmong? isKnown args
  | apply _ args => unmeantAmong? isKnown args
  | _ => none

def unmeantAmong? (isKnown : List String → Bool) : List Expr → Option String
  | [] => none
  | e :: es => (unmeant? isKnown e).or (unmeantAmong? isKnown es)

end

def takenBranch? (t : TableDef) (row : List (String × Value)) : List Expr → Option Expr
  | condition :: value :: rest =>
    if (condition.eval? t row).bind Value.truth = some true then some value
    else takenBranch? t row rest
  | [value] => some value
  | [] => none

/-- What an expression refuses in a row: with a message, or without one if the row is to be
skipped. -/
def refusal? (t : TableDef) (row : List (String × Value)) (e : Expr) : Option Outcome :=
  let e := match e with
    | apply "CASE" args => (takenBranch? t row args).getD .null
    | e => e
  match e with
  | apply "RAISE" [text message] => some (.refused message)
  | apply "RAISE" [] => some .skipped
  | _ => none

def holds (condition : Option Expr) (t : TableDef) (row : List (String × Value)) : Bool :=
  match condition with
  | none => true
  | some e => (e.eval? t row).bind Value.truth = some true

end Expr

namespace Selection

def values (q : Selection) : List Expr := q.results.filterMap (·.value)

def isColumn (columns : List (List String)) (parts : List String) : Bool :=
  let last := parts.getLastD ""
  let isRow := parts.length = 2 && ["new", "old"].contains ((parts.headD "").toLower)
  !columns.isEmpty && !isRow
    && (columns.any (·.any (sameName last)) || rowNames.contains last.toLower)

/-- The first thing in a selection that means nothing, as far as that can be told. -/
def unmeant? (q : Selection) (c : Catalog) (isKnown : List String → Bool) : Option String :=
  match q.tables.mapM fun table => (table.bind c.relation?).bind c.columnsOf? with
  | none => none
  | some columns =>
    Expr.unmeantAmong? (fun parts => isKnown parts || isColumn columns parts)
      (q.values ++ q.condition.toList)

def refusal? (q : Selection) (t : TableDef) (row : List (String × Value)) : Option Outcome :=
  if !q.tables.isEmpty || !Expr.holds q.condition t row then none
  else q.values.findSome? fun e => e.refusal? t row

end Selection

namespace TableDef

def plainColumns (t : TableDef) : List String :=
  (t.columns.filter (·.generated.isNone)).map (·.name)

def means (t : TableDef) (parts : List String) : Bool :=
  match parts with
  | [column] => isOwn column
  | [table, column] => sameName table t.name && isOwn column
  | _ => false
where
  isOwn (column : String) : Bool :=
    t.hasColumn column || (rowNames.contains column.toLower && !t.isClustered)

end TableDef

namespace TriggerDef

def rowName (g : TriggerDef) : String := if g.event = "DELETE" then "old" else "new"

def isKnown (g : TriggerDef) (t : TableDef) : List String → Bool
  | [row, column] =>
    (sameName row g.rowName || (g.event = "UPDATE" && sameName row "old"))
      && (t.hasColumn column || rowNames.contains column.toLower)
  | _ => false

/-- What is wrong with the values that a step inserts. -/
def valuesFault? (aim : TableDef) (s : TriggerStep) : Option String :=
  match s.selection with
  | none => none
  | some q =>
    let count := q.results.length
    if q.results.any (·.value.isNone) then none
    else if !s.columns.isEmpty then
      if count = s.columns.length then none
      else some s!"{count} values for {s.columns.length} columns"
    else if count = aim.plainColumns.length then none
    else
      some (s!"table {aim.name} has {aim.plainColumns.length} columns but {count} values were "
        ++ "supplied")

def assignedFault? (aim : TableDef) (isKnown : List String → Bool) :
    List (List String × Expr) → Option String
  | [] => none
  | (columns, e) :: rest =>
    (e.unmeant? isKnown)
    |>.or ((columns.find? fun name => !aim.means [name]).map
      fun column => s!"no such column: {column}")
    |>.or (assignedFault? aim isKnown rest)

/-- What a step of a trigger speaks of that is not there; what the change of its target leads to is
told by `next`. -/
def stepFault? (g : TriggerDef) (t : TableDef) (c : Catalog)
    (next : String → TableDef → Option String) (s : TriggerStep) : Option String :=
  let selectionFault := (c.missingTable? s.sources).or
    (s.selection.bind fun q => q.unmeant? c (g.isKnown t))
  match s.target with
  | none => selectionFault
  | some name =>
    match c.relation? name with
    | none => some s!"no such table: main.{name}"
    | some (.table aim) =>
      let absent := s.columns.find? fun column => !aim.means [column]
      let isKnown := fun parts => g.isKnown t parts || aim.means parts
      if s.kind = .insert then
        (absent.map fun column => s!"table {name} has no column named {column}")
        |>.or selectionFault
        |>.or (valuesFault? aim s)
        |>.or (next "INSERT" aim)
      else
        (absent.map fun column => s!"no such column: {column}")
        |>.or (assignedFault? aim isKnown s.assigned)
        |>.or (s.condition.bind fun e => e.unmeant? isKnown)
        |>.or selectionFault
        |>.or (next (if s.kind = .delete then "DELETE" else "UPDATE") aim)
    | some _ => selectionFault

def fault? (g : TriggerDef) (t : TableDef) (c : Catalog)
    (next : String → TableDef → Option String) : Option String :=
  (g.condition.bind fun e => e.unmeant? (g.isKnown t)).or
    (g.steps.findSome? (g.stepFault? t c next))

def subject (g : TriggerDef) (t : TableDef) : TableDef := { t with name := g.rowName }

end TriggerDef

end SymbolAtlas.Sql
