import SymbolAtlas.Settings.Basic
import SymbolAtlas.Toml.Reader
import SymbolAtlas.Toml.Table

/-!
Settings as TOML text.  There is a table for each section; what is unset is not written,
and what is not known is not read.
-/

namespace SymbolAtlas

namespace Toml

def Node.count? : Option Node → Option (Option Nat)
  | none => some none
  | some (.scalar (.int (.ofNat n))) => some (some n)
  | some _ => none

def Node.flag? : Option Node → Option (Option Bool)
  | none => some none
  | some (.scalar (.bool b)) => some (some b)
  | some _ => none

/-- The two settings of a section.  A table has them by name and an array by place; a section
that is missing or a date has neither of them. -/
def Node.settings? (first second : String) : Option Node → Option (Option Node × Option Node)
  | none => some (none, none)
  | some (.table _ members) => some (Members.get? members first, Members.get? members second)
  | some (.array items) => some (items[0]?, items[1]?)
  | some (.scalar .datetime) => some (none, none)
  | some _ => none

def maxInteger : Nat := int64Bound - 1

/-- A line that assigns a number; none if the number is too large. -/
def countLine? (key : String) : Option Nat → Option String
  | none => some ""
  | some n => if n ≤ maxInteger then some (key ++ " = " ++ toString n ++ "\n") else none

def flagLine (key : String) : Option Bool → String
  | none => ""
  | some true => key ++ " = true\n"
  | some false => key ++ " = false\n"

end Toml

namespace Settings

open Toml in
def ofMembers? (members : Members) : Option Settings := do
  let (poolSize, timeout) ← Node.settings? "read_pool_size" "busy_timeout_ms"
    (members.get? "storage")
  let (derive, progress) ← Node.settings? "derive_occurrences" "progress_every"
    (members.get? "ingest")
  let (usual, most) ← Node.settings? "default_search_limit" "max_search_limit"
    (members.get? "query")
  return {
    storage := { readPoolSize := ← Node.count? poolSize, busyTimeoutMs := ← Node.count? timeout }
    ingest := { deriveOccurrences := ← Node.flag? derive, progressEvery := ← Node.count? progress }
    query := { defaultSearchLimit := ← Node.count? usual, maxSearchLimit := ← Node.count? most } }

/-- The settings that a text spells, whether they are valid or not. -/
def ofText? (text : String) : Option Settings := do
  ofMembers? (← Toml.Document.ofEntries? (← Toml.entries? text))

def read (path text : String) : Except SettingsError Settings :=
  match ofText? text with
  | some c => .ok c
  | none => .error (.parse path "not settings")

def ofToml (text : String) : Except SettingsError Settings := read "<string>" text >>= validate

open Toml in
/-- The text of settings; none if a number is too large to be written. -/
def text? (c : Settings) : Option String := do
  let poolSize ← countLine? "read_pool_size" c.storage.readPoolSize
  let timeout ← countLine? "busy_timeout_ms" c.storage.busyTimeoutMs
  let progress ← countLine? "progress_every" c.ingest.progressEvery
  let usual ← countLine? "default_search_limit" c.query.defaultSearchLimit
  let most ← countLine? "max_search_limit" c.query.maxSearchLimit
  return "[storage]\n" ++ poolSize ++ timeout
    ++ "\n[ingest]\n" ++ flagLine "derive_occurrences" c.ingest.deriveOccurrences ++ progress
    ++ "\n[query]\n" ++ usual ++ most

def toToml (c : Settings) : Except SettingsError String :=
  match c.text? with
  | some text => .ok text
  | none => .error (.parse "<serialization>" "number out of range")

end Settings

end SymbolAtlas
