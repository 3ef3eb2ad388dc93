import SymbolAtlas.Image.Rows
import SymbolAtlas.Image.Schema
import SymbolAtlas.Sql.Command
import SymbolAtlas.Store.Script

/-!
Bringing the schema in an image up to date.  The statements of a migration are carried out one
after the other; each may find that what it creates is there already, in whatever form.
-/

namespace SymbolAtlas

/-- A database in an image while its schema is brought up to date: whether anything is changed,
whether trees were added, and how many bytes of entries, and whether these could be placed.  What
is new has its tree beyond the pages of the image. -/
structure Upgrade where
  image : Image
  catalog : Sql.Catalog
  isChanged : Bool := false
  hasGrown : Bool := false
  added : Nat := 0
  isPlaced : Bool := true

namespace Upgrade

def indexName : String := "symbol_fts"

/-- The tables that the parts of a full-text table over other rows are kept in, each with what
follows its name in the statement that creates it. -/
def shadowTables (name : String) : List (String × String) :=
  [("data", "(id INTEGER PRIMARY KEY, block BLOB)"),
   ("idx", "(segid, term, pgno, PRIMARY KEY(segid, term)) WITHOUT ROWID"),
   ("docsize", "(id INTEGER PRIMARY KEY, sz BLOB)"),
   ("config", "(k PRIMARY KEY, v) WITHOUT ROWID")].map
    fun (suffix, rest) => (Sql.partName name suffix, rest)

def counterName : String := "sqlite_sequence"

def canGrow (u : Upgrade) : Bool := u.hasGrown || u.image.canGrow

/-- Whether the rows of a table can be read. -/
def canScan (u : Upgrade) (table : String) : Bool :=
  match u.catalog.entry? table with
  | some (.table t, root) =>
    u.image.pageCount < root
      || u.image.isReadable (if t.isClustered then .keys else .numbers) t.columns.length root
  | _ => true

def finish (u : Upgrade) (grows : Bool) : Except EngineFailure Upgrade :=
  if !u.isPlaced || (!u.isChanged && !u.image.canFinish grows) then .error .malformedImage
  else .ok { u with isChanged := true, hasGrown := u.hasGrown || grows }

def note (u : Upgrade) (kind name table : String) (length : Nat) (hasTree : Bool) : Upgrade :=
  let size := u.image.entrySize [kind.length, name.length, table.length, length] hasTree
  { u with
    added := u.added + size
    isPlaced := u.isPlaced && u.image.canPlace u.added size }

def add (u : Upgrade) (length : Nat) (definition : Sql.Definition) : Upgrade :=
  let u := { u with catalog := u.catalog.add (u.image.pageCount + 1) definition }
  match definition with
  | .nothing => u
  | .trigger t => u.note "trigger" t.name t.table length false
  | .index name table _ => u.note "index" name table length true
  | .relation (.table t) =>
    let keys := (t.keys.zip t.keyIndexes).filter fun (k, _) => !(t.isClustered && k.isPrimary)
    keys.foldl (fun u (_, name) => u.note "index" name t.name 0 true)
      (u.note "table" t.name t.name length true)
  | .relation r => u.note "table" r.name r.name length false

/-- Creates one of the tables that a full-text table is kept in. -/
def addShadow (u : Upgrade) (shadow : String × String) : Except EngineFailure Upgrade :=
  let (name, rest) := shadow
  let text := "CREATE TABLE '" ++ name ++ "'" ++ rest
  match Sql.Setting.read ⟨u.catalog, none, text⟩ with
  | .error complaint => .error (.noShadowTable name (.other complaint.message))
  | .ok definition =>
    if !u.canGrow then .error (.noShadowTable name .malformedImage)
    else .ok (u.add text.length definition)

def addCounter (u : Upgrade) : Except EngineFailure Upgrade :=
  match u.catalog.relation? counterName with
  | some (.virtualTable _) => .error (.other s!"table {counterName} already exists")
  | some r =>
    if r.name = counterName then .ok u
    else .error (.other s!"{r.kind} {counterName} already exists")
  | none =>
    if u.catalog.hasIndex counterName then
      .error (.other s!"there is already an index named {counterName}")
    else
      .ok (u.add "CREATE TABLE sqlite_sequence(name,seq)".length
        (.relation (.table { name := counterName })))

/-- A table that numbers its rows on its own needs another one for that. -/
def addCounterFor (u : Upgrade) (definition : Sql.Definition) : Except EngineFailure Upgrade :=
  match definition with
  | .relation (.table t) => if t.counts then u.addCounter else .ok u
  | _ => .ok u

/-- Carries out the definition of something that is not there yet. -/
def define (u : Upgrade) (length : Nat) (definition : Sql.Definition) :
    Except EngineFailure Upgrade := do
  let next := u.add length definition
  match definition with
  | .nothing => return u
  | .trigger _ => next.finish false
  | .index _ table _ =>
    if !u.canGrow || !u.canScan table then throw .malformedImage
    next.finish true
  | .relation (.virtualTable t) =>
    if !u.hasGrown && u.image.schemaRoom < next.added && !u.image.canAllocate then
      throw .malformedImage
    let next ← (shadowTables t.name).foldlM addShadow next
    next.finish true
  | .relation _ =>
    if !u.canGrow then throw .malformedImage
    next.finish true

/-- How long the statement is that an entry keeps: without what stands around it, and without the
condition that something has to be missing. -/
def keptLength (text : String) : Nat :=
  let ts := (Sql.tokens text).filter fun t => t.text ≠ ""
  let start := (ts.head?.map (·.start)).getD 0
  let stop := (ts.getLast?.map (·.start)).getD 0
  stop - start - "IF NOT EXISTS ".length

/-- Carries out a statement that creates something; the rest of its script is quoted where the
place of a fault is told. -/
def create (u : Upgrade) (text rest : String) : Except EngineFailure Upgrade :=
  match Sql.Setting.read ⟨u.catalog, none, text⟩ with
  | .error ⟨message, none⟩ => .error (.other message)
  | .error ⟨message, some place⟩ =>
    .error (.other (message ++ " in " ++ rest ++ s!" at offset {place}"))
  | .ok definition => do
    let counted ← u.addCounterFor definition
    if u.image.isReadOnly then throw .readOnly
    match definition with
    | .nothing => return u
    | definition =>
      if u.added = 0 && !u.image.hasSchemaRoom then throw .malformedImage
      counted.define (keptLength text) definition

def indexedTable? (u : Upgrade) : Option String :=
  match u.catalog.relation? indexName with
  | some (.virtualTable t) =>
    match Sql.FullText.ofArguments t.arguments with
    | .ok { source := .table name, .. } => some name
    | .ok { source := .own, .. } => some (Sql.partName t.name "content")
    | _ => none
  | some (.table t) => some t.name
  | _ => none

def contents (u : Upgrade) : Sql.Contents := fun t =>
  match u.catalog.entry? t.name with
  | none => []
  | some (_, root) =>
    if u.image.pageCount < root then Sql.FullText.initialRows indexName t.name
    else u.image.rows t root

def refill (u : Upgrade) : Except EngineFailure Upgrade :=
  match u.catalog.commandOutcome? u.contents indexName "rebuild" with
  | some (.refused fault) => .error (.other fault)
  | some .skipped => .ok u
  | none =>
    if u.image.isReadOnly then .error .readOnly
    else if !((u.indexedTable?.map u.canScan).getD true) then .error .malformedImage
    else u.finish false

def creates (text : String) : Bool :=
  ((Sql.tokens text).head?.map (·.isKeyword "CREATE")).getD false

def run (u : Upgrade) : List String → Except EngineFailure Upgrade
  | [] => .ok u
  | text :: rest => do
    let u ← if creates text then u.create text (Migration.script (text :: rest)) else u.refill
    u.run rest

def apply (u : Upgrade) (m : Migration) : Except EngineFailure Upgrade := do
  let u ← u.run m.statements
  if u.image.isReadOnly then throw .readOnly
  u.finish false

def applyAll (u : Upgrade) : List Migration → Except StoreError Upgrade
  | [] => .ok u
  | m :: rest =>
    match u.apply m with
    | .error cause => .error (.migrationFailed m.number cause.message)
    | .ok u => u.applyAll rest

end Upgrade

end SymbolAtlas
