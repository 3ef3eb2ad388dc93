import SymbolAtlas.Sql.Catalog
import SymbolAtlas.Sql.Resolution

/-!
Reading the statements that create something.  Whether a statement makes sense depends on what is
there already, and in a schema also on the entry that it stands in.
-/

namespace SymbolAtlas.Sql

structure Entry where
  kind : Option String
  name : Option String
  table : Option String
  root : Nat

/-- What a statement is read against.  Without an entry it is to create something new. -/
structure Setting where
  catalog : Catalog
  entry : Option Entry
  text : String

namespace Setting

/-- Whether the statement stands in an entry for something else. -/
def isMisplaced (s : Setting) (kind name table : String) : Bool :=
  let same := fun (a : Option String) (b : String) => (a.map (sameName · b)).getD false
  match s.entry with
  | none => false
  | some e => !(same e.kind kind && same e.name name && same e.table table)

def slice (s : Setting) (start stop : Nat) : String :=
  String.ofList ((s.text.toList.drop start).take (stop - start))

def textOf (s : Setting) (ts : List Token) : String :=
  s.slice ((ts.head?.map (·.start)).getD 0) ((ts.getLast?.map (·.stop)).getD 0)

end Setting

def dequoted (text : String) : String :=
  match text.toList with
  | c :: r =>
    if c = '\x27' || c = '\x22' || c = '\x60' then String.ofList (unquoted c r)
    else if c = '[' then String.ofList (unquoted ']' r)
    else text
  | [] => text

def trimmed (text : String) : String :=
  let isBlank := fun c => c = ' ' || ('\t' ≤ c && c ≤ '\r')
  String.ofList
    ((text.toList.dropWhile isBlank).reverse.dropWhile isBlank).reverse

/-- The text of a type without the words `generated always` that may end it. -/
def typeName (text : String) : String :=
  let dropEnd := fun (word : String) (text : String) =>
    let n := text.length - word.length
    if word.length ≤ text.length && sameName (String.ofList (text.toList.drop n)) word then
      some (trimmed (String.ofList (text.toList.take n)))
    else none
  let text := if 16 ≤ text.length then
      match dropEnd "always" text with
      | some rest => (dropEnd "generated" rest).getD rest
      | none => text
    else text
  dequoted text

def strictTypes : List String := ["ANY", "BLOB", "INT", "INTEGER", "REAL", "TEXT"]

def mostColumns : Nat := 2000

/-- The definition of a table as far as it is read, and the name that was given to the next
constraint.  What nobody will use is not judged. -/
structure Draft where
  table : TableDef
  isLive : Bool
  constraint : Option String := none

namespace Draft

def object (d : Draft) (message : String) : Parser Unit :=
  if d.isLive then Parser.object message none else pure ()

def addColumn (d : Draft) (name type : String) : Parser Draft := do
  if mostColumns ≤ d.table.columns.length then
    d.object s!"too many columns on {d.table.name}"
    return d
  else if d.table.hasColumn name then
    d.object s!"duplicate column name: {name}"
    return d
  else
    return { d with
      table := { d.table with columns := d.table.columns ++ [{ name, type }] }
      constraint := none }

def lastColumn (d : Draft) : ColumnDef := d.table.columns.getLastD { name := "" }

def modifyLast (d : Draft) (f : ColumnDef → ColumnDef) : Draft :=
  { d with table := d.table.modifyLast f }

def keyColumns (t : TableDef) : List KeyTerm → Except String (List (String × String))
  | [] => .ok []
  | term :: terms =>
    let e := term.value.asName
    match (e.verdict .index t none).fault with
    | some fault => .error fault
    | none =>
      match e.column? t with
      | none => .error "expressions prohibited in PRIMARY KEY and UNIQUE constraints"
      | some c =>
        let collation := e.collation?.getD (((t.column? c).map (·.collation)).getD "BINARY")
        (keyColumns t terms).map ((c, collation) :: ·)

/-- The table with another key.  A key that is there already is not repeated. -/
def withKey (t : TableDef) (key : KeyDef) : Except String TableDef :=
  let isSame := fun (k : KeyDef) => k.columns.length = key.columns.length
    && (k.columns.zip key.columns).all fun (a, b) => sameName a.1 b.1 && sameName a.2 b.2
  match t.keys.find? isSame with
  | none => .ok { t with keys := t.keys ++ [key] }
  | some k =>
    if k.resolution.isSome && key.resolution.isSome && k.resolution ≠ key.resolution then
      .error "conflicting ON CONFLICT clauses specified"
    else
      let merged : KeyDef :=
        { k with
          resolution := k.resolution.or key.resolution
          isPrimary := k.isPrimary || key.isPrimary }
      .ok { t with keys := t.keys.map fun k => if isSame k then merged else k }

/-- Where a term of a key must not say that nulls stand. -/
def nullsFault? (terms : List KeyTerm) : Option String :=
  (terms.findSome? (·.nulls)).map fun side => s!"unsupported use of NULLS {side}"

def addKey (d : Draft) (terms : Option (List KeyTerm)) (resolution : Option String)
    (isPrimary : Bool) : Parser Draft := do
  if !d.isLive || (← Parser.isObjected) then return d
  else
    let columns : Except String (List (String × String)) := match terms with
      | none => .ok [(d.lastColumn.name, d.lastColumn.collation)]
      | some terms =>
        match nullsFault? terms with
        | some fault => .error fault
        | none => keyColumns d.table terms
    match columns.bind fun columns => withKey d.table ⟨columns, resolution, isPrimary⟩ with
    | .error fault =>
      d.object fault
      return d
    | .ok table => return { d with table }

def makePrimary (d : Draft) (name : String) : Parser Draft := do
  if ((d.table.column? name).bind (·.generated)).isSome then
    d.object "generated columns cannot be part of the PRIMARY KEY"
  return { d with table := d.table.modifyColumn name fun c => { c with isPrimary := true } }

def makeAllPrimary (d : Draft) : List String → Parser Draft
  | [] => return d
  | name :: names => do
    let d ← d.makePrimary name
    d.makeAllPrimary names

def addPrimary (d : Draft) (terms : Option (List KeyTerm)) (descends counts : Bool)
    (resolution : Option String) : Parser Draft := do
  if d.table.hasPrimary then
    d.object s!"table \"{d.table.name}\" has more than one primary key"
    return d
  else
    let names := match terms with
      | none => [d.lastColumn.name]
      | some terms => terms.filterMap fun term =>
          match term.value.asName.withoutCollation with
          | .name [part] _ => (d.table.column? part).map (·.name)
          | _ => none
    let d ← makeAllPrimary { d with table := { d.table with hasPrimary := true } } names
    let last := names.getLast?.bind d.table.column?
    let isNumber := (last.map fun c => sameName c.type "INTEGER").getD false
    if ((terms.map (·.length)).getD 1) = 1 && isNumber && !descends then
      match nullsFault? (terms.getD []) with
      | some fault => d.object fault
      | none => pure ()
      return { d with table := { d.table with
        rowNumber := last.map (·.name), counts := counts } }
    else if counts then
      d.object "AUTOINCREMENT is only allowed on an INTEGER PRIMARY KEY"
      return d
    else d.addKey terms resolution true

def addReference (d : Draft) (columns : Option (List String)) (table : Token)
    (targets : Option (List String)) : Parser Draft := do
  let own := columns.getD [d.lastColumn.name]
  let missing := own.find? fun c => !d.table.hasColumn c
  let mismatch := (targets.map fun ts => decide (ts.length ≠ own.length)).getD false
  if columns.isNone && mismatch then
    d.object (s!"foreign key on {d.lastColumn.name} should reference only one column "
      ++ "of table " ++ table.text)
    return d
  else if mismatch then
    d.object ("number of columns in foreign key does not match the number of columns in "
      ++ "the referenced table")
    return d
  else
    match missing with
    | some c =>
      d.object s!"unknown column \"{c}\" in foreign key definition"
      return d
    | none =>
      return { d with table := { d.table with
        references := d.table.references ++ [⟨own, table.label, targets.getD []⟩] } }

def addDefault (d : Draft) (value : Expr) : Parser Draft := do
  if !value.isConstant then
    d.object s!"default value of column [{d.lastColumn.name}] is not constant"
    return d
  else if d.lastColumn.generated.isSome then
    d.object "cannot use DEFAULT on a generated column"
    return d
  else return d.modifyLast fun c => { c with default := some value }

def addGenerated (d : Draft) (value : Expr) (manner : Option String) : Parser Draft := do
  let known := (manner.map fun m => sameName m "virtual" || sameName m "stored").getD true
  if d.lastColumn.default.isSome || d.lastColumn.generated.isSome || !known then
    d.object s!"error in generated column \"{d.lastColumn.name}\""
    return d
  else
    let value := match value with
      | .name [_] _ => .apply "unary +" [value]
      | value => value
    let isStored := (manner.map (sameName · "stored")).getD false
    let d := d.modifyLast fun c => { c with generated := some value, isStored }
    if d.lastColumn.isPrimary then d.makePrimary d.lastColumn.name else return d

def addCheck (d : Draft) (label : String) (condition : Expr) : Draft :=
  { d with table := { d.table with
    checks := d.table.checks ++ [⟨d.constraint.getD label, condition⟩] } }

/-- Gives the last column a collation, also where it leads a key. -/
def addCollation (d : Draft) (collation : String) : Draft :=
  let name := d.lastColumn.name
  let lead := fun (k : KeyDef) => match k.columns with
    | (c, old) :: r => { k with columns := (c, if sameName c name then collation else old) :: r }
    | [] => k
  let d := d.modifyLast fun c => { c with collation }
  { d with table := { d.table with keys := d.table.keys.map lead } }

/-- A clustered table, the number of whose rows is a key like others. -/
def clustered (t : TableDef) : TableDef :=
  match t.rowNumber with
  | none => t
  | some c =>
    match withKey t ⟨[(c, ((t.column? c).map (·.collation)).getD "BINARY")], none, true⟩ with
    | .ok t => { t with rowNumber := none }
    | .error _ => t

/-- Notes what is wrong with the constraints of a table.  Names in them are looked up only now, when
all columns are known. -/
def judge (d : Draft) (t : TableDef) : Parser Unit := do
  let prior := (← get).pending.map (·.message)
  let fault := fun (site : Site) (prior : Option String) (e : Expr) =>
    (e.verdict site t prior).fault
  let checked := t.checks.foldl (fun (found, isDone) k =>
    if isDone then (found, isDone)
    else
      let fault := fault .check found k.condition
      (fault, fault.isSome)) (prior, false)
  match (t.columns.filterMap (·.generated)).foldl (fault .generated) checked.1 with
  | some fault => d.object fault
  | none => pure ()
  if t.columns.all (·.generated.isSome) then
    d.object "must have at least one non-generated column"

/-- The table when its options are known. -/
def finish (d : Draft) (isStrict isClustered : Bool) : Parser TableDef := do
  let t := { d.table with isStrict := isStrict }
  let loose := t.columns.find? fun c => !strictTypes.contains (c.type.map Char.toUpper)
  match (if isStrict then loose else none) with
  | some c =>
    d.object (if c.type = "" then s!"missing datatype for {t.name}.{c.name}"
      else s!"unknown datatype for {t.name}.{c.name}: \"{c.type}\"")
    return t
  | none =>
    if isClustered && t.counts then
      d.object "AUTOINCREMENT not allowed on WITHOUT ROWID tables"
      return t
    else if isClustered && !t.hasPrimary then
      d.object s!"PRIMARY KEY missing on table {t.name}"
      return t
    else
      let t := { t with isClustered := isClustered }
      let t := if isClustered then clustered t else t
      d.judge t
      return t

end Draft

namespace Parser

def conflictClause : Parser (Option String) := do
  if ← takeKeyword "ON" then
    keyword "CONFLICT"
    some <$> resolution
  else return none

def referenceActions : (fuel : Nat) → Parser Unit
  | 0 => return ()
  | fuel + 1 => do
    if ← takeKeyword "MATCH" then
      let _ ← label
      referenceActions fuel
    else if ← takeKeyword "ON" then
      oneOf ["INSERT", "DELETE", "UPDATE"]
      if ← takeKeyword "SET" then oneOf ["NULL", "DEFAULT"]
      else if ← takeKeyword "NO" then keyword "ACTION"
      else oneOf ["CASCADE", "RESTRICT"]
      referenceActions fuel

def deferral : Parser Unit := do
  keyword "DEFERRABLE"
  if ← takeKeyword "INITIALLY" then oneOf ["DEFERRED", "IMMEDIATE"]

def listedNames : Parser (Option (List String)) := do
  if ← atMark "(" then some <$> columnNames else return none

def referenceTarget : Parser (Token × Option (List String)) := do
  let table ← tokenIf Token.isLabel
  let targets ← listedNames
  referenceActions (← remaining)
  return (table, targets)

def literal : Parser Expr := do
  let t ← peek
  match t.kind with
  | .integer | .real =>
    let _ ← advance
    return .number t.text
  | .text =>
    let _ ← advance
    return .text t.word
  | .blob =>
    let _ ← advance
    return .blob t.text
  | _ =>
    if ← takeKeyword "NULL" then return .null
    else if ← takeOneOf ["CURRENT_DATE", "CURRENT_TIME", "CURRENT_TIMESTAMP"] then
      return .call t.text [] {}
    else reject

def defaultValue : Parser Expr := do
  if ← takeMark "(" then
    let e ← anyExpression
    mark ")"
    return e
  else if ← takeMark "+" then literal
  else if ← takeMark "-" then return .apply "unary -" [← literal]
  else
    let t ← peek
    let isLiteral := t.kind = .keyword
      && ["CURRENT_DATE", "CURRENT_TIME", "CURRENT_TIMESTAMP"].contains t.word
    if (t.isName && !isLiteral) || t.isKeyword "INDEXED" then
      let _ ← advance
      if t.kind ≠ .quotedName && ["true", "false"].contains t.label.toLower then
        return .name [t.label] none
      else return .text t.label
    else literal

def condition (s : Setting) : Parser (Expr × String) := do
  let first ← tokenIf (·.isMark "(")
  let e ← anyExpression
  let last ← tokenIf (·.isMark ")")
  return (e, dequoted (trimmed (s.slice first.stop last.start)))

def computation : Parser (Expr × Option String) := do
  mark "("
  let e ← anyExpression
  mark ")"
  if (← peek).isName then return (e, some (← advance).text) else return (e, none)

def columnConstraint (s : Setting) (d : Draft) : Parser (Option Draft) := do
  if ← takeKeyword "CONSTRAINT" then return some { d with constraint := some (← label) }
  else if ← takeKeyword "DEFAULT" then some <$> d.addDefault (← defaultValue)
  else if ← takeKeyword "NULL" then
    let _ ← conflictClause
    return some d
  else if ← takeKeyword "NOT" then
    if ← atKeyword "DEFERRABLE" then
      deferral
      return some d
    else
      keyword "NULL"
      let nullResolution ← conflictClause
      return some (d.modifyLast fun c => { c with isNotNull := true, nullResolution })
  else if ← atKeyword "DEFERRABLE" then
    deferral
    return some d
  else if ← takeKeyword "PRIMARY" then
    keyword "KEY"
    let descends ← takeKeyword "DESC"
    if !descends then
      let _ ← takeKeyword "ASC"
    let resolution ← conflictClause
    let counts ← takeKeyword "AUTOINCREMENT"
    some <$> d.addPrimary none descends counts resolution
  else if ← takeKeyword "UNIQUE" then
    let resolution ← conflictClause
    some <$> d.addKey none resolution false
  else if ← takeKeyword "CHECK" then
    let (e, text) ← condition s
    return some (d.addCheck text e)
  else if ← takeKeyword "REFERENCES" then
    let (table, targets) ← referenceTarget
    some <$> d.addReference none table targets
  else if ← takeKeyword "COLLATE" then
    return some (d.addCollation (← tokenIf Token.isNameOrText).label)
  else
    let generated ← takeKeyword "GENERATED"
    if generated then keyword "ALWAYS"
    if ← takeKeyword "AS" then
      let (e, manner) ← computation
      some <$> d.addGenerated e manner
    else if generated then reject
    else return none

def columnConstraints (s : Setting) : (fuel : Nat) → Draft → Parser Draft
  | 0, d => return d
  | fuel + 1, d => do
    match ← columnConstraint s d with
    | some d => columnConstraints s fuel d
    | none => return d

def tableConstraint (s : Setting) (d : Draft) : Parser (Option Draft) := do
  if ← takeKeyword "CONSTRAINT" then return some { d with constraint := some (← label) }
  else if ← takeKeyword "PRIMARY" then
    keyword "KEY"
    mark "("
    let terms ← keyTerms
    let counts ← takeKeyword "AUTOINCREMENT"
    mark ")"
    let resolution ← conflictClause
    some <$> d.addPrimary (some terms) false counts resolution
  else if ← takeKeyword "UNIQUE" then
    let terms ← inParens keyTerms
    let resolution ← conflictClause
    some <$> d.addKey (some terms) resolution false
  else if ← takeKeyword "CHECK" then
    let (e, text) ← condition s
    let _ ← conflictClause
    return some (d.addCheck text e)
  else if ← takeKeyword "FOREIGN" then
    keyword "KEY"
    let columns ← columnNames
    keyword "REFERENCES"
    let (table, targets) ← referenceTarget
    let negated ← takeKeyword "NOT"
    if negated || (← atKeyword "DEFERRABLE") then deferral
    some <$> d.addReference (some columns) table targets
  else return none

def tableConstraints (s : Setting) : (fuel : Nat) → Draft → Parser Draft
  | 0, d => return d
  | fuel + 1, d => do
    match ← tableConstraint s d with
    | none => reject
    | some d =>
      let t ← peek
      if ← takeMark "," then tableConstraints s fuel { d with constraint := none }
      else if ["CONSTRAINT", "PRIMARY", "UNIQUE", "CHECK", "FOREIGN"].any t.isKeyword then
        tableConstraints s fuel d
      else return d

def tableBody (s : Setting) : (fuel : Nat) → Draft → Parser Draft
  | 0, d => return d
  | fuel + 1, d => do
    let name ← label
    let type ← typeTokens
    let d ← d.addColumn name (typeName (s.textOf type))
    let d ← columnConstraints s (← remaining) d
    if ← takeMark "," then
      let t ← peek
      if ["CONSTRAINT", "PRIMARY", "UNIQUE", "CHECK", "FOREIGN"].any t.isKeyword then
        tableConstraints s fuel d
      else tableBody s fuel d
    else return d

/-- One option of a table: that it is strict, or that it is the tree of its primary key. -/
def tableOption (d : Draft) : Parser (Bool × Bool) := do
  let clustered ← takeKeyword "WITHOUT"
  let t ← tokenIf Token.isLabel
  let known := sameName t.text (if clustered then "rowid" else "strict")
  if !known then d.object s!"unknown table option: {t.text}"
  return (known && !clustered, known && clustered)

def tableOptions (d : Draft) : (fuel : Nat) → Bool × Bool → Parser (Bool × Bool)
  | 0, found => return found
  | fuel + 1, found => do
    if ← takeMark "," then
      let more ← tableOption d
      tableOptions d fuel (found.1 || more.1, found.2 || more.2)
    else return found

def allTableOptions (d : Draft) : Parser (Bool × Bool) := do
  let first ← if (← peek).isLabel then tableOption d else pure (false, false)
  tableOptions d (← remaining) first

structure Manner where
  ifMissing : Bool := false
  isQualified : Bool := false

def ifMissing : Parser Bool := do
  if ← takeKeyword "IF" then
    keywords ["NOT", "EXISTS"]
    return true
  else return false

def newName : Parser (Manner × Token) := do
  let ifMissing ← ifMissing
  let t ← tokenIf Token.isLabel
  if ← takeMark "." then
    let second ← tokenIf Token.isLabel
    return (⟨ifMissing, true⟩, second)
  else return (⟨ifMissing, false⟩, t)

/-- What a trigger is called and in which table it acts on what. -/
structure TriggerHead where
  manner : Manner
  name : Token
  time : TriggerTime
  event : String
  table : String

def triggerHead : Parser TriggerHead := do
  let (manner, name) ← newName
  let time : TriggerTime ←
    if ← takeKeyword "AFTER" then pure .after
    else if ← takeKeyword "INSTEAD" then do
      keyword "OF"
      pure .instead
    else do
      let _ ← takeKeyword "BEFORE"
      pure .before
  let event := (← peek).word
  oneOf ["DELETE", "INSERT", "UPDATE"]
  if ← takeKeywordIf (event = "UPDATE") "OF" then
    let _ ← list label
  keyword "ON"
  let first ← label
  let table ← if ← takeMark "." then label else pure first
  return ⟨manner, name, time, event, table⟩

/-- What a statement is to create.  In a schema nothing is there for a while only, whatever its
statement says. -/
inductive Heading where
  | table (manner : Manner) (name : Token)
  | view (manner : Manner) (name : Token)
  | virtualTable (manner : Manner) (name : Token)
  | index (manner : Manner) (name : Token) (isUnique : Bool)
  | trigger (head : TriggerHead)

def headingOf (make : Manner → Token → Heading) : Parser Heading := do
  let (m, t) ← newName
  return make m t

def heading : Parser Heading := do
  keyword "CREATE"
  let isTemporary ← takeOneOf ["TEMP", "TEMPORARY"]
  if ← takeKeyword "TABLE" then headingOf .table
  else if ← takeKeyword "VIEW" then headingOf .view
  else if ← takeKeyword "TRIGGER" then .trigger <$> triggerHead
  else if isTemporary then reject
  else if ← takeKeyword "INDEX" then headingOf (.index · · false)
  else if ← takeKeyword "UNIQUE" then
    keyword "INDEX"
    headingOf (.index · · true)
  else if ← takeKeyword "VIRTUAL" then
    keyword "TABLE"
    headingOf .virtualTable
  else reject

/-- Whether a relation of a name is to be created. -/
def startRelation (s : Setting) (m : Manner) (kind : String) (t : Token) : Parser Bool := do
  let isSchema := (s.entry.map fun e => decide (e.root = 1)).getD false
  let name := if isSchema then schemaTable.name else t.label
  if s.entry.isSome && m.isQualified && !isSchema then
    object "corrupt database" none
    return false
  else if s.isMisplaced kind name name then
    object "" none
    return false
  else
    match s.catalog.relation? name with
    | some r =>
      if !m.ifMissing then object s!"{r.kind} {t.text} already exists" none
      return false
    | none =>
      if s.catalog.hasIndex name then
        object s!"there is already an index named {name}" none
        return false
      else return true

def otherDatabase? : Parser (Option String) := do
  return (← get).databases.find? fun d => !sameName d "main"

/-- A table from its columns on. -/
def tableFrom (s : Setting) (t : Token) (isLive : Bool) : Parser Definition := do
  let d ← tableBody s (← remaining) { table := { name := t.label }, isLive }
  mark ")"
  let (isStrict, isClustered) ← allTableOptions d
  if isLive then
    let table ← d.finish isStrict isClustered
    return .relation (.table table)
  else return .nothing

def createTable (s : Setting) (m : Manner) (t : Token) : Parser Definition := do
  let isLive ← startRelation s m "table" t
  if ← takeKeyword "AS" then
    let _ ← anyQuery
    if isLive then object "" none
    return .nothing
  else
    mark "("
    tableFrom s t isLive

/-- The view whose query was read. -/
def viewOf (s : Setting) (t : Token) (listed : Option (List String)) (single : Option Selection) :
    Parser Definition := do
  match ← otherDatabase? with
  | some database =>
    object s!"view {t.text} cannot reference objects in database {database}" none
  | none =>
    if (s.entry.map fun e => decide (e.root ≠ 0)).getD false then object "" none
  let r ← get
  let sources := r.sources.filter fun name => !r.locals.any (sameName name)
  let named := single.bind fun q => q.results.mapM fun c => c.value.map fun _ => c.name.getD ""
  return .relation (.view ⟨t.label, sources, listed.or named, single⟩)

def createView (s : Setting) (m : Manner) (t : Token) : Parser Definition := do
  let listed ← listedNames
  keyword "AS"
  let single ← anyQuery
  if (← get).hasParameter then
    object "parameters are not allowed in views" none
    return .nothing
  else if ← startRelation s m "view" t then viewOf s t listed single
  else return .nothing

/-- The tokens of arguments up to the parenthesis that closes them, cut at commas. -/
def argumentTokens : (fuel depth : Nat) → Parser (List (List Token))
  | 0, _ => reject
  | fuel + 1, depth => do
    let t ← peek
    if t.kind = .finish || t.kind = .illegal then reject
    else if depth = 0 && t.isMark ")" then return [[]]
    else
      let t ← advance
      if depth = 0 && t.isMark "," then return [] :: (← argumentTokens fuel depth)
      else
        let depth := if t.isMark "(" then depth + 1 else if t.isMark ")" then depth - 1 else depth
        match ← argumentTokens fuel depth with
        | first :: rest => return (t :: first) :: rest
        | [] => return [[t]]

def virtualArguments : Parser (List (List Token)) := do
  if ← takeMark "(" then
    let found ← argumentTokens (← remaining) 0
    mark ")"
    return found.filter (!·.isEmpty)
  else return []

def createVirtual (s : Setting) (m : Manner) (t : Token) : Parser Definition := do
  keyword "USING"
  let engine ← label
  let isLive ← startRelation s m "table" t
  let arguments ← virtualArguments
  if isLive then
    return .relation (.virtualTable ⟨t.label, engine, arguments.map s.textOf⟩)
  else return .nothing

def judgeTerms (t : TableDef) (prior : Option String) : List KeyTerm → Parser Unit
  | [] => return ()
  | term :: terms => do
    match (term.value.asName.verdict .index t prior).fault with
    | some fault => object fault (some term.place)
    | none => judgeTerms t none terms

/-- Whether an index is to be created for a table. -/
def startIndex (s : Setting) (m : Manner) (name table : String) (terms : List KeyTerm) :
    Parser (Option TableDef) := do
  let refuse := fun (message : String) => do
    object message none
    pure none
  match Draft.nullsFault? terms with
  | some fault => refuse fault
  | none =>
    if s.entry.isSome && m.isQualified then refuse "corrupt database"
    else
      match s.catalog.relation? table with
      | none => refuse s!"no such table: main.{table}"
      | some (.view _) => refuse "views may not be indexed"
      | some (.virtualTable _) => refuse "virtual tables may not be indexed"
      | some (.table t) =>
        if s.isMisplaced "index" name t.name then refuse ""
        else if s.entry.isNone && s.catalog.hasRelation name then
          refuse s!"there is already a table named {name}"
        else if s.catalog.hasIndex name then
          if m.ifMissing then return none else refuse s!"index {name} already exists"
        else return some t

def indexKey? (t : TableDef) (terms : List KeyTerm) : Option KeyDef :=
  match Draft.keyColumns t terms with
  | .ok columns => some { columns }
  | .error _ => none

/-- The index of a table with the terms of its key. -/
def indexOf (s : Setting) (t : Token) (isUnique : Bool) (on : TableDef) (terms : List KeyTerm)
    (condition : Option Expr) : Parser Definition := do
  let fault := condition.bind fun e => (e.verdict .partialIndex on none).fault
  match fault with
  | some fault => object fault none
  | none => pure ()
  judgeTerms on fault terms
  let index : IndexDef := ⟨t.label, on.name, (s.entry.map (·.root)).getD 0, none⟩
  if s.entry.isSome && !(← isObjected) && s.catalog.sharesRoot index then
    object "invalid rootpage" none
  let key := if isUnique && condition.isNone then indexKey? on terms else none
  return .index t.label on.name key

def whereClause : Parser (Option Expr) := do
  if ← takeKeyword "WHERE" then some <$> anyExpression else return none

def createIndex (s : Setting) (m : Manner) (t : Token) (isUnique : Bool) : Parser Definition := do
  keyword "ON"
  let table ← label
  let terms ← inParens keyTerms
  let condition ← whereClause
  match ← startIndex s m t.label table terms with
  | none => return .nothing
  | some on => indexOf s t isUnique on terms condition

/-- What a trigger changes: it names a table of its own database. -/
def targetName : Parser String := do
  let first ← label
  if ← takeMark "." then
    let _ ← label
    object ("qualified table names are not allowed on INSERT, UPDATE, and DELETE statements "
      ++ "within triggers") none
  return first

/-- A trigger leaves it to others which index is used. -/
def noIndexChoice : Parser Unit := do
  let refuse := fun (clause : String) => object
    s!"the {clause} clause is not allowed on UPDATE or DELETE statements within triggers" none
  if ← takeKeyword "INDEXED" then
    keyword "BY"
    let _ ← label
    refuse "INDEXED BY"
  else if ← takeKeyword "NOT" then
    keyword "INDEXED"
    refuse "NOT INDEXED"

def assignments : Parser (List (List String × Expr)) :=
  list do
    if ← atMark "(" then
      let names ← inParens (list label)
      mark "="
      let e ← anyExpression
      match e with
      | .query => pure ()
      | e =>
        if e.width ≠ names.length then
          object s!"{names.length} columns assigned {e.width} values" none
      return (names, e)
    else
      let name ← label
      mark "="
      return ([name], ← anyExpression)

def conflictHandling : (fuel : Nat) → Parser Bool
  | 0 => return false
  | fuel + 1 => do
    if ← takeKeyword "RETURNING" then
      resultColumns
      object "cannot use RETURNING in a trigger" none
      return false
    else if ← takeKeyword "ON" then
      keyword "CONFLICT"
      if ← atMark "(" then
        let _ ← inParens keyTerms
        let _ ← whereClause
        keyword "DO"
        doClause
        let _ ← conflictHandling fuel
      else
        keyword "DO"
        doClause
        if ← atKeyword "RETURNING" then
          let _ ← conflictHandling fuel
      return true
    else return false
where
  doClause : Parser Unit := do
    if !(← takeKeyword "NOTHING") then
      keywords ["UPDATE", "SET"]
      let _ ← assignments
      let _ ← whereClause

def triggerStep : Parser TriggerStep := do
  let way := do if ← takeKeyword "OR" then some <$> resolution else pure none
  if ← takeKeyword "UPDATE" then
    let resolution ← way
    let target ← targetName
    noIndexChoice
    keyword "SET"
    let assigned ← assignments
    let joinsOthers ← takeKeyword "FROM"
    if joinsOthers then
      let _ ← joinedTables
    let condition ← whereClause
    if joinsOthers then
      return { kind := .update, target, columns := (assigned.map (·.1)).flatten, resolution }
    else return { kind := .update, target, assigned, condition, resolution }
  else if ← takeKeyword "DELETE" then
    keyword "FROM"
    let target ← targetName
    noIndexChoice
    let condition ← whereClause
    return { kind := .delete, target, condition }
  else
    let inserts ← takeKeyword "INSERT"
    let resolution ← if inserts then way else pure none
    let replaces ← takeKeywordIf (!inserts) "REPLACE"
    if inserts || replaces then
      keyword "INTO"
      let target ← targetName
      let columns ← if ← atMark "(" then inParens (list label) else pure []
      let selection ← if startsQuery (← peek) then anyQuery else reject
      let handles ← conflictHandling (← remaining)
      let resolution := if replaces || handles then some "REPLACE" else resolution
      return { kind := .insert, target, columns, resolution, selection }
    else if startsQuery (← peek) then return { kind := .select, selection := ← anyQuery }
    else reject

def triggerSteps : (fuel : Nat) → Parser (List TriggerStep)
  | 0 => reject
  | fuel + 1 => do
    modify fun r => { r with sources := [], locals := [] }
    let step ← triggerStep
    mark ";"
    let r ← get
    let step := { step with
      sources := r.sources.filter fun name => !r.locals.any (sameName name) }
    if ← takeKeyword "END" then return [step] else return step :: (← triggerSteps fuel)

/-- What keeps a trigger of a relation from firing at a time. -/
def timeFault? (r : Relation) (time : TriggerTime) (table : String) : Option String :=
  match r, time with
  | .view _, .before => some s!"cannot create BEFORE trigger on view: {table}"
  | .view _, .after => some s!"cannot create AFTER trigger on view: {table}"
  | .table _, .instead => some s!"cannot create INSTEAD OF trigger on table: {table}"
  | _, _ => none

/-- Whether a trigger is to be created for a table. -/
def startTrigger (s : Setting) (m : Manner) (t : Token) (table : String) (time : TriggerTime) :
    Parser Bool := do
  let refuse := fun (message : String) => do
    object message none
    pure false
  if s.entry.isSome && m.isQualified then refuse "corrupt database"
  else
    match s.catalog.relation? table with
    | none => refuse s!"no such table: main.{table}"
    | some (.virtualTable _) => refuse "cannot create triggers on virtual tables"
    | some r =>
      if s.isMisplaced "trigger" t.label r.name then refuse ""
      else if s.catalog.hasTrigger t.label then
        if m.ifMissing then return false else refuse s!"trigger {t.text} already exists"
      else if sameName (String.ofList (r.name.toList.take 7)) "sqlite_" then
        refuse "cannot create trigger on system table"
      else
        match timeFault? r time table with
        | some fault => refuse fault
        | none => return true

/-- The trigger whose steps were read. -/
def triggerOf (h : TriggerHead) (condition : Option Expr) (steps : List TriggerStep) :
    Parser Definition := do
  match ← otherDatabase? with
  | some database =>
    object s!"trigger {h.name.text} cannot reference objects in database {database}" none
  | none => pure ()
  return .trigger
    { name := h.name.label, table := h.table, time := h.time, event := h.event, condition, steps }

def whenClause : Parser (Option Expr) := do
  if ← takeKeyword "FOR" then keywords ["EACH", "ROW"]
  if ← takeKeyword "WHEN" then some <$> anyExpression else return none

def createTrigger (s : Setting) (h : TriggerHead) : Parser Definition := do
  let condition ← whenClause
  let isLive ← startTrigger s h.manner h.name h.table h.time
  keyword "BEGIN"
  let steps ← triggerSteps (← remaining)
  if isLive then triggerOf h condition steps else return .nothing

def creation (s : Setting) : Parser Definition := do
  match ← heading with
  | .table m t => createTable s m t
  | .view m t => createView s m t
  | .virtualTable m t => createVirtual s m t
  | .index m t isUnique => createIndex s m t isUnique
  | .trigger h => createTrigger s h

end Parser

/-- What the statement at the front of a text creates, or what is wrong with it. -/
def Setting.read (s : Setting) : Except Complaint Definition := do
  let statement : Parser Definition := do
    let definition ← Parser.creation s
    Parser.mark ";"
    return definition
  let (definition, _) ← statement.run { tokens := tokens s.text }
  return definition

end SymbolAtlas.Sql
