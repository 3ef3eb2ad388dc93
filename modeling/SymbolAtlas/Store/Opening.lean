import SymbolAtlas.File
import SymbolAtlas.Store.Upgrade

/-!
Opening a database in a file: the image has to be readable, and the migrations that its version
takes for not done are applied.
-/

namespace SymbolAtlas

namespace Database

/-- What a catalog says of the database; its rows are not looked at. -/
def ofCatalog (version : Int) (c : Sql.Catalog) : Database where
  version := version
  hasGraph := c.hasRelation "symbols"
  hasSearchIndex := c.hasRelation Upgrade.indexName
  followsSymbols := c.hasTrigger "symbol_fts_insert"
  hasOccurrences := c.hasRelation "occurrences"

def prepare (image : Image) : Except EngineFailure Sql.Catalog :=
  match image.catalog with
  | .error cause => .error (.cannotPrepare cause)
  | .ok catalog =>
    if !image.isLogged && image.isReadOnly then .error (.cannotPrepare .readOnly)
    else .ok catalog

/-- Applies the migrations that the version takes for not done to the database in an image. -/
def ofImage (image : Image) : Except StoreError Database :=
  match prepare image with
  | .error cause => .error (.engine cause)
  | .ok catalog =>
    let db := ofCatalog image.version catalog
    match db.versionNumber with
    | .error e => .error (.migrationFailed 0 e.message)
    | .ok version =>
      match Upgrade.applyAll { image, catalog } (due version) with
      | .error e => .error e
      | .ok u =>
        match image.laterFailure? u.added with
        | some cause => .error (.engine (.cannotPrepareReader cause))
        | none => .ok (ofCatalog (max version Migration.latest : Nat) u.catalog)

/-- Opens the database at a path.  A file that is not there yet, or has at most one byte,
becomes a new database. -/
def openAt (path : String) (hasDirectory : Bool) (state : FileState) :
    Except StoreError Database :=
  if !hasDirectory then .error (.engine (.cannotOpen path))
  else
    match state with
    | .absent => .ok fresh
    | .directory => .error (.engine (.cannotOpen path))
    | .file content =>
      if content.length ≤ 1 then .ok fresh else ofImage (Image.ofBytes content)

end Database

end SymbolAtlas
