import SymbolAtlas.Sql.Expression
import SymbolAtlas.Sql.Function

/-!
What the names in an expression mean.  An expression in the definition of a table or of an index
may speak of the columns of that one table only, and of some things not at all.
-/

namespace SymbolAtlas.Sql

inductive Site where
  | check
  | generated
  | index
  | partialIndex
deriving DecidableEq

namespace Site

def name : Site → String
  | check => "CHECK constraints"
  | generated => "generated columns"
  | index => "index expressions"
  | partialIndex => "partial index WHERE clauses"

def isComputed (s : Site) : Bool := s = generated || s = index

end Site

def rowNames : List String := ["rowid", "oid", "_rowid_"]

namespace Expr

inductive Meaning where
  | column (name : String)
  | row
  | literal
  | missing (name : String)

/-- What a name means in the definition of a table.  A name in double quotes that means nothing
else is a text. -/
def meaning (site : Site) (t : TableDef) (parts : List String) (quote : Option Char) : Meaning :=
  let parts := if parts.length = 3 && !site.isComputed then parts.drop 1 else parts
  let (qualifiers, last) := (parts.dropLast, parts.getLastD "")
  let isHere := match qualifiers with
    | [] => true
    | [table] => sameName table t.name
    | [database, table] => sameName database "main" && sameName table t.name
    | _ => false
  match (if isHere then t.column? last else none) with
  | some c => .column c.name
  | none =>
    if isHere && !site.isComputed && !t.isClustered && rowNames.contains last.toLower then .row
    else if qualifiers.isEmpty && quote = some '\x22' then .literal
    else if qualifiers.isEmpty && quote = none && ["true", "false"].contains last.toLower then
      .literal
    else .missing (".".intercalate parts)

def column? (t : TableDef) (e : Expr) : Option String :=
  match e.withoutCollation with
  | name [part] quote =>
    match meaning .index t [part] quote with
    | .column c => some c
    | _ => none
  | _ => none

def isProbability : Expr → Bool
  | number written =>
    match written.toList with
    | '0' :: '.' :: r => r.all Char.isDigit
    | '.' :: r => r.all Char.isDigit
    | '1' :: '.' :: r => r.all (· = '0')
    | _ => false
  | _ => false

def callFault? (site : Site) (function : String) (args : List Expr) (form : CallForm) :
    Option String :=
  let count := args.length
  let unfit := form.isWindowed && !(callee function count).looksAround
  match callee function count with
  | .unknown =>
    if form.isWindowed || form.isFiltered then
      some s!"FILTER may not be used with non-aggregate {function}()"
    else none
  | .wrongCount _ =>
    if unfit then some s!"{function}() may not be used as a window function"
    else some s!"wrong number of arguments to function {function}()"
  | .found .window => some s!"misuse of window function {function}()"
  | .found .aggregate =>
    let kind := if form.isWindowed then "window" else "aggregate"
    some s!"misuse of {kind} function {function}()"
  | .found kind =>
    if unfit then some s!"{function}() may not be used as a window function"
    else if sameName function "likelihood" && !((args[1]?).map isProbability).getD true then
      some "second argument to likelihood() must be a constant between 0.0 and 1.0"
    else if form.isFiltered then some s!"FILTER may not be used with non-aggregate {function}()"
    else if kind = .varying && site ≠ .check then
      some s!"non-deterministic functions prohibited in {site.name}"
    else none

def comparisons : List String := ["=", "<>", "<", "<=", ">", ">=", "IS", "IS NOT", "BETWEEN"]

/-- A name on the right of `IS` is looked up before all else. -/
def rightFault? (site : Site) (t : TableDef) (op : String) (args : List Expr) : Option String :=
  match (if op = "IS" || op = "IS NOT" then args.map withoutCollation else []) with
  | [_, name [part] quote] =>
    match meaning site t [part] quote with
    | .missing full => some s!"no such column: {full}"
    | _ => none
  | _ => none

/-- What is known to be wrong with an expression, and whether that ends the search. -/
structure Verdict where
  fault : Option String
  isFinal : Bool := fault.isSome

mutual

/-- What is wrong with an expression, given what is wrong with those before it.  A later fault is
told in the place of an earlier one; but the search ends with a name that means nothing and, once
something is wrong, with anything but a name or a call. -/
def verdict (site : Site) (t : TableDef) (prior : Option String) : Expr → Verdict
  | name parts quote =>
    let dotted := if parts.length ≠ 1 && site.isComputed then
        some s!"the \".\" operator prohibited in {site.name}"
      else prior
    match meaning site t parts quote with
    | .missing full => { fault := some s!"no such column: {full}" }
    | _ => { fault := dotted, isFinal := false }
  | parameter => { fault := some s!"parameters prohibited in {site.name}" }
  | query => { fault := some s!"subqueries prohibited in {site.name}" }
  | call function args form =>
    let fault := (callFault? site function args form).or prior
    { verdicts site t fault args with isFinal := false }
  | apply op args =>
    if op = "IN" && args.any isQuery then
      { fault := some s!"subqueries prohibited in {site.name}" }
    else if let some fault := rightFault? site t op args then { fault := some fault }
    else if op = "ISNULL" || op = "NOTNULL" then
      { verdicts site t prior args with isFinal := false }
    else if comparisons.contains op
        && args.any (fun e => e.width ≠ (args.head?.map width).getD 1) then
      { fault := some "row value misused" }
    else if prior.isSome then { fault := prior }
    else verdicts site t none args
  | _ => { fault := prior }

def verdicts (site : Site) (t : TableDef) (prior : Option String) : List Expr → Verdict
  | [] => { fault := prior, isFinal := false }
  | e :: es =>
    let v := verdict site t prior e
    if v.isFinal then v else verdicts site t v.fault es

end

def isConstant : Expr → Bool
  | name [part] none => ["true", "false"].contains part.toLower
  | name _ _ => false
  | query => false
  | apply "RAISE" _ => false
  | apply _ args => args.attach.all fun ⟨e, _⟩ => e.isConstant
  | call _ args form =>
    !form.isWindowed && !form.isFiltered && args.attach.all fun ⟨e, _⟩ => e.isConstant
  | _ => true

end Expr

end SymbolAtlas.Sql
