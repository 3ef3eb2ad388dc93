/-!
Everything that can go wrong, as causes.  Each family has one function for its wording and one
for its stable code; a coded text is the code in brackets before the wording.
-/

namespace SymbolAtlas

inductive EngineFailure where
  | foreignKey
  | repeatedMonikerLink
  | readOnly
  | nestedTransaction
  | blocked
  | injected
  | missingTable (table : String)
  | versionOutOfRange (version : Int)
  | notADatabase
  | malformedImage
  | unsupportedFormat
  | malformedSchema (entry : String) (detail : Option String)
  | cannotPrepare (cause : EngineFailure)
  | cannotPrepareReader (cause : EngineFailure)
  | noShadowTable (table : String) (cause : EngineFailure)
  | cannotOpen (path : String)
  | other (message : String)
deriving DecidableEq

def EngineFailure.message : EngineFailure → String
  | foreignKey => "FOREIGN KEY constraint failed"
  | repeatedMonikerLink => "UNIQUE constraint failed: moniker_symbols.moniker_id"
  | readOnly => "attempt to write a readonly database"
  | nestedTransaction => "cannot start a transaction within a transaction"
  | blocked => "blocked"
  | injected => "injected"
  | missingTable table => "no such table: " ++ table
  | versionOutOfRange version => s!"Integer {version} out of range at index 0"
  | notADatabase => "file is not a database"
  | malformedImage => "database disk image is malformed"
  | unsupportedFormat => "unsupported file format"
  | malformedSchema entry none => "malformed database schema (" ++ entry ++ ")"
  | malformedSchema entry (some detail) =>
    "malformed database schema (" ++ entry ++ ") - " ++ detail
  | cannotPrepare cause => "failed to apply pragmas: " ++ cause.message
  | cannotPrepareReader cause => "failed to apply read pragmas: " ++ cause.message
  | noShadowTable table cause =>
    "fts5: error creating shadow table " ++ table ++ ": " ++ cause.message
  | cannotOpen path => "unable to open database file: " ++ path
  | other message => message

inductive StoreError where
  | engine (cause : EngineFailure)
  | migrationFailed (version : Nat) (message : String)
  | busy (message : String)
  | notFound (entity : String) (id : Int)
deriving DecidableEq

namespace StoreError

def message : StoreError → String
  | engine cause => "SQLite error: " ++ cause.message
  | migrationFailed version text => s!"migration failed at version {version}: {text}"
  | busy text => "database busy: " ++ text
  | notFound entity id => s!"{entity} {id} not found"

def code : StoreError → String
  | engine _ => "STORAGE_ERROR"
  | migrationFailed _ _ => "MIGRATION_FAILED"
  | busy _ => "DB_BUSY"
  | notFound _ _ => "NOT_FOUND"

def locked : StoreError := busy "database is locked"

end StoreError

inductive IngestError where
  | stream (line : Nat) (message : String)
  | storage (line : Nat) (context : String) (source : StoreError)
  | transaction (source : StoreError)
  | derivation (run : Int) (source : StoreError)
deriving DecidableEq

namespace IngestError

def message : IngestError → String
  | stream line text => s!"failed to read stream at line {line}: {text}"
  | storage line context source => s!"ingest failed at line {line} ({context}): " ++ source.message
  | transaction source => "ingest transaction failed: " ++ source.message
  | derivation run source =>
    s!"occurrence derivation failed for index {run}: " ++ source.message

/-- Lock contention keeps its own code, whichever stage met it. -/
def storageCode : StoreError → String
  | .busy _ => "DB_BUSY"
  | _ => "INGEST_FAILED"

def code : IngestError → String
  | stream _ _ => "INGEST_IO"
  | storage _ _ source => storageCode source
  | transaction source => storageCode source
  | derivation _ _ => "DERIVATION_FAILED"

def source? : IngestError → Option StoreError
  | stream _ _ => none
  | storage _ _ source => some source
  | transaction source => some source
  | derivation _ source => some source

end IngestError

inductive QueryError where
  | storage (source : StoreError)
  | invalid (message : String)
deriving DecidableEq

namespace QueryError

def message : QueryError → String
  | storage source => "Storage error: " ++ source.message
  | invalid text => "invalid query: " ++ text

def code : QueryError → String
  | storage source => source.code
  | invalid _ => "INVALID_QUERY"

def source? : QueryError → Option StoreError
  | storage source => some source
  | invalid _ => none

end QueryError

inductive SettingsError where
  | fileNotFound (path : String)
  | parse (path : String) (message : String)
  | validation (field : String) (message : String)
deriving DecidableEq

namespace SettingsError

def message : SettingsError → String
  | fileNotFound path => "Config file not found: " ++ path
  | parse path text => "Config parse error in " ++ path ++ ": " ++ text
  | validation field text => "Config validation failed for " ++ field ++ ": " ++ text

def code : SettingsError → String := fun _ => "CONFIG_ERROR"

end SettingsError

/-- A code in brackets before the wording. -/
def codedMessage (code message : String) : String := "[" ++ code ++ "] " ++ message

end SymbolAtlas
