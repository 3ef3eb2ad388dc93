import SymbolAtlas.Image.Tree
import SymbolAtlas.Sql.Statement

/-!
The schema of an image: the records of the tree in its first page, one for each table, index,
view and trigger.
-/

namespace SymbolAtlas

namespace Image

/-- An entry of a schema: of which kind it is, its name, the table that it belongs to, the page of
its tree and the statement that creates it. -/
structure SchemaEntry where
  kind : Option String
  name : Option String
  table : Option String
  root : Option String
  statement : Option String

namespace SchemaEntry

def ofColumns (encoding : Encoding) (columns : List Column) : SchemaEntry :=
  let text := fun (k : Nat) => (columns[k]?).bind (Column.text? encoding)
  ⟨text 0, text 1, text 2, text 3, text 4⟩

def creates (e : SchemaEntry) : Bool :=
  match (e.statement.getD "").toList with
  | c :: d :: _ => c.toLower = 'c' && d.toLower = 'r'
  | _ => false

def rootPage? (e : SchemaEntry) : Option Nat :=
  let digits := (e.root.getD "").toList
  let n := digits.foldl (fun n c => n * 10 + (c.toNat - '0'.toNat)) 0
  if digits.isEmpty || !digits.all Char.isDigit || word32Bound < n then none
  else some (n % word32Bound)

def malformed (e : SchemaEntry) (detail : Option String) : EngineFailure :=
  .malformedSchema (e.name.getD "?") detail

/-- The catalog with what an entry of an image of so many pages defines.  What comes without a
statement is the index of a key. -/
def define (e : SchemaEntry) (pageCount : Nat) (c : Sql.Catalog) :
    Except EngineFailure Sql.Catalog :=
  let invalidRoot := e.malformed (some "invalid rootpage")
  if e.root = none then .error (e.malformed none)
  else if e.creates then
    match e.rootPage? with
    | none => .error invalidRoot
    | some root =>
      if pageCount < root then .error invalidRoot
      else
        match Sql.Setting.read ⟨c, some ⟨e.kind, e.name, e.table, root⟩, e.statement.getD ""⟩ with
        | .error ⟨"", _⟩ => .error (e.malformed none)
        | .error complaint => .error (e.malformed (some complaint.message))
        | .ok definition => .ok (c.add root definition)
  else
    match e.name, e.statement.getD "" with
    | some name, "" =>
      match c.index? name, e.rootPage? with
      | none, _ => .error (e.malformed (some "orphan index"))
      | some _, none => .error invalidRoot
      | some index, some root =>
        if root < 2 || pageCount < root || c.sharesRoot { index with root } then
          .error invalidRoot
        else .ok (c.setRoot name root)
    | _, _ => .error (e.malformed none)

end SchemaEntry

def defineAt (image : Image) (c : Sql.Catalog) (cell : Option Nat) :
    Except EngineFailure Sql.Catalog :=
  match (cell.bind image.payload?).bind (columns? 5) with
  | none => .error .malformedImage
  | some columns => (SchemaEntry.ofColumns image.encoding columns).define image.pageCount c

def catalog (image : Image) : Except EngineFailure Sql.Catalog :=
  match image.headerFailure? with
  | some failure => .error failure
  | none => (image.cellsBelow .numbers mostLevels 1).foldlM image.defineAt {}

def isReadOnly (image : Image) : Bool := 2 < image.writerLevel

def isLogged (image : Image) : Bool := image.readerLevel = 2

def hasSchemaRoom (image : Image) : Bool := (image.lastPages mostLevels 1).all image.hasSoundRoom

/-- How many bytes an entry takes with its place in the list of cells, given the lengths of its
texts and whether it has a tree. -/
def entrySize (image : Image) (lengths : List Nat) (hasTree : Bool) : Nat :=
  let wide := if image.encoding = .utf8 then 1 else 2
  let total := lengths.foldl (· + ·) 0
  let types := lengths.foldl (fun k n => k + if 2 * n * wide + 13 < 128 then 1 else 2) 0
  let root := if hasTree || image.schemaFormat < 4 then 1 else 0
  let payload := 2 + types + total * wide + root
  min payload image.mostLocal + (if payload < 128 then 1 else 2) + 3

def lastSchemaPage (image : Image) : Nat := (image.lastPages mostLevels 1).getLastD 1

def schemaRoom (image : Image) : Nat := (image.freeRoom? image.lastSchemaPage).getD 0

/-- Whether an entry of so many bytes can be put into the last page of the schema after others, or
does not fit there.  Where it fits only if the free room is put together, there has to be as much of
it as the page says. -/
def canPlace (image : Image) (added size : Nat) : Bool :=
  let page := image.lastSchemaPage
  added + size ≤ image.gap page || image.schemaRoom < added + size || image.hasTrueRoom page

/-- The image as it is once the schema has outgrown its first page: what stands in the reserved
end of that page is lost. -/
def withSchemaMoved (image : Image) : Image :=
  { image with bytes := image.bytes.mapIdx fun k b =>
      if image.usableSize ≤ k && k < image.pageSize then 0 else b }

def laterFailure? (image : Image) (added : Nat) : Option EngineFailure :=
  if image.reserved ≠ 0 && image.isLeaf? 1 = some true && image.schemaRoom < added then
    match image.withSchemaMoved.catalog with
    | .error cause => some cause
    | .ok _ => none
  else none

end Image

end SymbolAtlas
