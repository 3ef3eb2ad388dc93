import SymbolAtlas.Sql.Firing

/-!
Inserting a row, with the columns that are not given left to themselves, and deleting all rows.
-/

namespace SymbolAtlas.Sql

/-- An insertion of a row with the given values; it may say what is to be done about conflicts. -/
structure Insertion where
  given : List (String × Value)
  resolution : Option String := none

def mostTriggered : Nat := 8

namespace TableDef

def requires (t : TableDef) (c : ColumnDef) : Bool :=
  t.rowNumber ≠ some c.name
    && (c.isNotNull || (c.isPrimary && (t.isClustered || t.isStrict)))

def rowOf (t : TableDef) (i : Insertion) (number : Int) : List (String × Value) :=
  let given := fun (c : ColumnDef) =>
    match i.given.find? fun g => sameName g.1 c.name with
    | some (_, v) => some v
    | none =>
      if t.rowNumber = some c.name then some (.integer number)
      else (c.default.getD .null).eval? t []
  let keep := fun (c : ColumnDef) (v : Option Value) =>
    v.map fun v => (c.name, v.within (.ofType c.type))
  let plain := (t.columns.filter (·.generated.isNone)).filterMap fun c => keep c (given c)
  let computed := t.columns.filterMap fun c => c.generated.bind fun e => keep c (e.eval? t plain)
  let own := (t.rowNumber.bind fun name => plain.lookup name).getD (.integer number)
  plain ++ computed ++ [("rowid", own)]

def misfit? (c : ColumnDef) : Value → Option String
  | .text _ => if ["TEXT", "ANY"].any (sameName c.type) then none else some "TEXT"
  | .integer _ => if ["TEXT", "BLOB"].any (sameName c.type) then some "INT" else none
  | .real _ _ =>
    if ["REAL", "ANY"].any (sameName c.type) then none else some "REAL"
  | .blob _ => if ["BLOB", "ANY"].any (sameName c.type) then none else some "BLOB"
  | .null => none

def isTarget (t : TableDef) (indexes : List IndexDef) (targets : List String) : Bool :=
  let isKey := fun (k : KeyDef) => k.columns.length = targets.length
    && targets.all fun c => k.columns.any fun d => sameName c d.1
  if targets.isEmpty then t.rowNumber.isSome || t.keys.any (·.isPrimary)
  else targets.map String.toLower = (t.rowNumber.map String.toLower).toList
    || (indexes.filter fun i => sameName i.table t.name).any fun i => (i.key.map isKey).getD false

def referenceFault? (t : TableDef) (c : Catalog) (r : ReferenceDef) : Option String :=
  let mismatch := s!"foreign key mismatch - \"{t.name}\" referencing \"{r.table}\""
  match c.relation? r.table with
  | none => some s!"no such table: main.{r.table}"
  | some (.table aim) => if aim.isTarget c.indexes r.targets then none else some mismatch
  | some _ => some mismatch

/-- What keeps a change from being made whatever the rows are.  The triggers that it sets off are
read as well. -/
def changeFault? (c : Catalog) : (fuel : Nat) → (event : String) → TableDef → Option String
  | 0, _, _ => none
  | fuel + 1, event, t =>
    let unknown := Expr.unknownAmong?
      (t.columns.filterMap (·.default) ++ t.columns.filterMap (·.generated)
        ++ t.checks.map (·.condition))
    let own := if event = "DELETE" then none
      else (t.references.findSome? (t.referenceFault? c)).or
        (unknown.map fun f => s!"unknown function: {f}()")
    own.or ((c.rowTriggers event t.name).findSome? fun g =>
      g.fault? t c (changeFault? c fuel))

def insertFault? (t : TableDef) (c : Catalog) (table : String) (columns : List String) :
    Option String :=
  let columnFault := fun (name : String) =>
    match t.column? name with
    | none => some s!"table {table} has no column named {name}"
    | some own =>
      if own.generated.isSome then some s!"cannot INSERT into generated column \"{own.name}\""
      else none
  (columns.findSome? columnFault).or (changeFault? c mostTriggered "INSERT" t)

def violation (resolution : Option String) (message : String) : Outcome :=
  if resolution = some "IGNORE" then .skipped else .refused message

def nullOutcome? (t : TableDef) (i : Insertion) (row : List (String × Value)) (c : ColumnDef) :
    Option Outcome :=
  if t.requires c && row.lookup c.name = some .null then
    some (violation (i.resolution.or c.nullResolution)
      s!"NOT NULL constraint failed: {t.name}.{c.name}")
  else none

def isOccupied (k : KeyDef) (vs : List Value) (row : Row) : Bool :=
  (k.columns.zip vs).all fun ((column, collation), v) =>
    ((row.values.lookup column).map fun w => Value.same (sameName collation "NOCASE") v w).getD
      false

/-- What a row that is there already leads to. -/
def clash? (t : TableDef) (contents : Contents) (i : Insertion) (row : List (String × Value))
    (k : KeyDef) : Option Outcome :=
  let resolution := i.resolution.or k.resolution
  match k.columns.mapM fun c => row.lookup c.1 with
  | none => none
  | some vs =>
    if vs.contains .null || resolution = some "REPLACE"
        || !(contents t).any (isOccupied k vs) then none
    else
      let names := k.columns.map fun c => t.name ++ "." ++ c.1
      some (violation resolution ("UNIQUE constraint failed: " ++ ", ".intercalate names))

/-- Whether a reference leads nowhere; one to the row itself never does. -/
def dangles (t : TableDef) (c : Catalog) (contents : Contents) (row : List (String × Value))
    (r : ReferenceDef) : Bool :=
  let isSelf := sameName r.table t.name
    && r.columns.map String.toLower = r.targets.map String.toLower
  let values := r.columns.mapM fun name => (t.column? name).bind fun c => row.lookup c.name
  match values, c.relation? r.table with
  | some vs, some (.table aim) =>
    let primary := ((aim.keys.find? (·.isPrimary)).map fun k => k.columns.map (·.1)).getD
      aim.rowNumber.toList
    let targets := if r.targets.isEmpty then primary else r.targets
    let isThere := fun (row : Row) => (targets.zip vs).all fun (target, v) =>
      ((row.value? target).map fun w => Value.same false v w).getD false
    !isSelf && vs.all (· ≠ .null) && !(contents aim).any isThere
  | _, _ => false

def isMisnumbered (t : TableDef) (given : String × Value) : Bool :=
  (t.rowNumber.map (sameName · given.1)).getD false
    && match given.2 with
      | .text s => (Value.integerOf? s).isNone
      | .blob _ => true
      | _ => false

/-- How the insertion of a row ends early because of its constraints, in the order in which they
are looked at. -/
def constraintOutcome? (t : TableDef) (c : Catalog) (contents : Contents) (i : Insertion)
    (row : List (String × Value)) : Option Outcome :=
  let misfit := fun (c : ColumnDef) => ((row.lookup c.name).bind (misfit? c)).map fun kind =>
    Outcome.refused ("cannot store " ++ kind ++ " value in " ++ c.type.map Char.toUpper
      ++ " column " ++ t.name ++ "." ++ c.name)
  let failed := fun (k : CheckDef) =>
    if (k.condition.eval? t row).bind Value.truth = some false then
      some (violation i.resolution s!"CHECK constraint failed: {k.label}")
    else none
  let keys := (c.indexes.filter fun i => sameName i.table t.name).reverse.filterMap (·.key)
  (t.columns.findSome? (t.nullOutcome? i row))
  |>.or (if t.isStrict then t.columns.findSome? misfit else none)
  |>.or (t.checks.findSome? failed)
  |>.or (keys.findSome? (t.clash? contents i row))

end TableDef

/-- What comes of a change: how it ends early, and whether references lead nowhere then. -/
structure Effect where
  outcome : Option Outcome := none
  dangles : Bool := false

namespace Effect

def andThen (a b : Effect) : Effect :=
  if a.outcome.isSome then a else { b with dangles := a.dangles || b.dangles }

def all (effects : List Effect) : Effect := effects.foldl andThen {}

/-- What is left of the effect of a change that another change makes: that it is skipped does not
matter to the other. -/
def within (e : Effect) : Effect :=
  match e.outcome with
  | some .skipped => { e with outcome := none }
  | _ => e

def ending? (e : Effect) : Option Outcome :=
  e.outcome.or (if e.dangles then some (.refused "FOREIGN KEY constraint failed") else none)

end Effect

namespace TriggerDef

def inserted? (g : TriggerDef) (t aim : TableDef) (row : List (String × Value))
    (s : TriggerStep) : Option Insertion := do
  let q ← s.selection
  if !q.tables.isEmpty || !Expr.holds q.condition (g.subject t) row then none
  else
    let columns := if s.columns.isEmpty then aim.plainColumns else s.columns
    let given := (columns.zip q.values).filterMap fun (column, e) =>
      (e.eval? (g.subject t) row).map fun v => (column, v)
    if given.length = columns.length then some ⟨given, s.resolution⟩ else none

def effect (g : TriggerDef) (t : TableDef) (c : Catalog) (row : List (String × Value))
    (insert : TableDef → Insertion → Effect) : Effect :=
  let step := fun (s : TriggerStep) =>
    match s.kind, s.target.bind c.relation? with
    | .select, _ => { outcome := s.selection.bind fun q => q.refusal? (g.subject t) row : Effect }
    | .insert, some (.table aim) =>
      ((g.inserted? t aim row s).map fun i => (insert aim i).within).getD {}
    | _, _ => {}
  if Expr.holds g.condition (g.subject t) row then .all (g.steps.map step) else {}

end TriggerDef

namespace TableDef

/-- What comes of the insertion of a row.  A trigger is not set off by what it does itself. -/
def insert (c : Catalog) (contents : Contents) :
    (fuel : Nat) → (active : List String) → TableDef → Insertion → Effect
  | 0, _, _, _ => {}
  | fuel + 1, active, t, i =>
    let next := ((contents t).filterMap (·.number)).foldl (fun n m => max n (m + 1)) 1
    let row := t.rowOf i next
    let fire := fun time row => Effect.all
      (((c.triggersOn "INSERT" t.name time).filter fun g => !active.contains g.name).map fun g =>
        g.effect t c row (insert c contents fuel (g.name :: active)))
    let misnumbered := if i.given.any t.isMisnumbered then
      some (Outcome.refused "datatype mismatch") else none
    .all [{ outcome := misnumbered }, fire .before (t.rowOf i (-1)),
      { outcome := t.constraintOutcome? c contents i row }, fire .after row,
      { dangles := t.references.any (t.dangles c contents row) }]

def insertOutcome? (t : TableDef) (c : Catalog) (contents : Contents) (i : Insertion) :
    Option Outcome :=
  (insert c contents mostTriggered [] t i).ending?

def clearOutcome? (t : TableDef) (c : Catalog) (contents : Contents) : Option Outcome :=
  let effects := (contents t).flatMap fun row => (c.rowTriggers "DELETE" t.name).map fun g =>
    g.effect t c row.values (insert c contents mostTriggered [g.name])
  (Effect.all effects).ending?

end TableDef

namespace ViewDef

def asTable (v : ViewDef) (columns : List String) : TableDef where
  name := v.name
  columns := columns.map fun name => { name }

def fault? (v : ViewDef) (c : Catalog) : Option String :=
  let miscounted := do
    let q ← v.selection
    let columns ← v.columns
    let count := q.results.length
    if q.results.any (·.value.isNone) || columns.length = count then none
    else some s!"expected {columns.length} columns for '{v.name}' but got {count}"
  (c.missingTable? v.sources)
  |>.or (v.selection.bind fun q => q.unmeant? c fun _ => false)
  |>.or miscounted

/-- How the insertion of a row into a view ends early.  Only triggers can take it. -/
def insertOutcome? (v : ViewDef) (c : Catalog) (contents : Contents) (table : String)
    (i : Insertion) : Option Outcome :=
  let triggers := c.triggersOn "INSERT" v.name .instead
  match v.fault? c with
  | some fault => some (.refused fault)
  | none =>
    if triggers.isEmpty then some (.refused s!"cannot modify {table} because it is a view")
    else
      match v.columnsIn? c mostNested with
      | none => none
      | some columns =>
        let t := v.asTable columns
        match i.given.find? fun g => !t.hasColumn g.1 with
        | some (column, _) => some (.refused s!"table {table} has no column named {column}")
        | none =>
          match triggers.findSome? fun g =>
              g.fault? t c (TableDef.changeFault? c mostTriggered) with
          | some fault => some (.refused fault)
          | none =>
            Effect.ending? (.all (triggers.map fun g =>
              g.effect t c (t.rowOf i (-1)) (TableDef.insert c contents mostTriggered [g.name])))

def rows? (v : ViewDef) : Option (List Row) := do
  let q ← v.selection
  let columns ← v.columns
  if !q.tables.isEmpty || q.condition.isSome then none
  else
    let values ← (q.results.filterMap (·.value)).mapM fun e => e.eval? { name := "" } []
    some [⟨none, columns.zip values⟩]

end ViewDef

end SymbolAtlas.Sql
