import SymbolAtlas.File
import SymbolAtlas.Settings.Format

/-!
The settings of a project come in layers.  Those of the user's file lie under those of the
project's file, and the environment lies over both; only the outcome is validated.
-/

namespace SymbolAtlas

/-- What surrounds the program: the variables of its environment and the files it can see. -/
structure Surroundings where
  env : String → Option String
  files : String → FileState

/-- A number as a variable spells it: digits with at most a plus in front, below 2⁶⁴. -/
def variableCount? (text : String) : Option Nat :=
  let digits := match text.toList with
    | '+' :: r => r
    | cs => cs
  if digits.isEmpty || !digits.all isDigit then none
  else
    let n := digitsValue 10 0 digits
    if n < word64Bound then some n else none

def variableFlag? (text : String) : Option Bool :=
  if text = "true" then some true else if text = "false" then some false else none

namespace Settings

/-- What the environment says; a value that cannot be read says nothing. -/
def ofVariables (env : String → Option String) : Settings where
  storage :=
    { readPoolSize := (env "CODENAV_STORAGE_READ_POOL_SIZE").bind variableCount?
      busyTimeoutMs := (env "CODENAV_STORAGE_BUSY_TIMEOUT_MS").bind variableCount? }
  ingest :=
    { deriveOccurrences := (env "CODENAV_INGEST_DERIVE_OCCURRENCES").bind variableFlag?
      progressEvery := (env "CODENAV_INGEST_PROGRESS_EVERY").bind variableCount? }
  query :=
    { defaultSearchLimit := (env "CODENAV_QUERY_DEFAULT_SEARCH_LIMIT").bind variableCount?
      maxSearchLimit := (env "CODENAV_QUERY_MAX_SEARCH_LIMIT").bind variableCount? }

/-- What a file says; a file that is not there says nothing. -/
def ofFile (files : String → FileState) (path : String) : Except SettingsError Settings :=
  match files path with
  | .absent => .ok {}
  | state =>
    match state.text? with
    | some text => read path text
    | none => .error (.fileNotFound path)

def userPath? (env : String → Option String) : Option String :=
  (env "HOME" <|> env "USERPROFILE").map fun home =>
    joinPath (joinPath home ".codenav") "config.toml"

def projectPath (root : String) : String := joinPath root "codenav.toml"

def load (around : Surroundings) (root : String) : Except SettingsError Settings := do
  let user ← match userPath? around.env with
    | some path => ofFile around.files path
    | none => pure {}
  let project ← ofFile around.files (projectPath root)
  validate ((overlay user project).overlay (ofVariables around.env))

end Settings

end SymbolAtlas
