import SymbolAtlas.Error
import SymbolAtlas.Number.Bounds

/-!
Settings.  An unset one has an effective value of its own, and only settings as a whole are
validated.
-/

namespace SymbolAtlas

structure StorageSettings where
  readPoolSize : Option Nat := none
  busyTimeoutMs : Option Nat := none
deriving DecidableEq

namespace StorageSettings

def maxReaders : Nat := 8

def poolSize (c : StorageSettings) : Nat := c.readPoolSize.getD 4

def timeoutMs (c : StorageSettings) : Nat := c.busyTimeoutMs.getD 5000

/-- Whether a connection can be told to wait so long: milliseconds are counted in 32 bits with a
sign. -/
def canWait (c : StorageSettings) : Bool := c.timeoutMs < int32Bound

/-- The number of readers that are opened, whatever the setting asks for. -/
def readers (c : StorageSettings) : Nat := max 1 (min c.poolSize maxReaders)

end StorageSettings

structure IngestSettings where
  deriveOccurrences : Option Bool := none
  progressEvery : Option Nat := none
deriving DecidableEq

namespace IngestSettings

def derives (c : IngestSettings) : Bool := c.deriveOccurrences.getD true

def progressStep (c : IngestSettings) : Nat := max (c.progressEvery.getD 100000) 1

end IngestSettings

structure QuerySettings where
  defaultSearchLimit : Option Nat := none
  maxSearchLimit : Option Nat := none
deriving DecidableEq

namespace QuerySettings

def usualLimit (c : QuerySettings) : Nat := c.defaultSearchLimit.getD 50

def limitCap (c : QuerySettings) : Nat := c.maxSearchLimit.getD 1000

/-- The limit of a search: what is asked for, else the default, but never above the cap. -/
def limitFor (c : QuerySettings) (requested : Option Nat) : Nat :=
  min (requested.getD c.usualLimit) c.limitCap

end QuerySettings

structure Settings where
  storage : StorageSettings := {}
  ingest : IngestSettings := {}
  query : QuerySettings := {}
deriving DecidableEq

namespace Settings

/-- The first thing that is wrong with settings, in a fixed order of checks. -/
def complaint? (c : Settings) : Option SettingsError :=
  if c.storage.readPoolSize.any fun n => n < 1 || StorageSettings.maxReaders < n then
    some (.validation "storage.read_pool_size"
      s!"must be between 1 and {StorageSettings.maxReaders}")
  else if c.query.defaultSearchLimit = some 0 then
    some (.validation "query.default_search_limit" "must be greater than 0")
  else if c.query.maxSearchLimit = some 0 then
    some (.validation "query.max_search_limit" "must be greater than 0")
  else if c.query.limitCap < c.query.usualLimit then
    some (.validation "query.default_search_limit" "must not exceed query.max_search_limit")
  else none

def validate (c : Settings) : Except SettingsError Settings :=
  match c.complaint? with
  | some e => .error e
  | none => .ok c

/-- Lays settings over others: what `upper` sets wins, setting by setting. -/
def overlay (lower upper : Settings) : Settings where
  storage :=
    { readPoolSize := upper.storage.readPoolSize <|> lower.storage.readPoolSize
      busyTimeoutMs := upper.storage.busyTimeoutMs <|> lower.storage.busyTimeoutMs }
  ingest :=
    { deriveOccurrences := upper.ingest.deriveOccurrences <|> lower.ingest.deriveOccurrences
      progressEvery := upper.ingest.progressEvery <|> lower.ingest.progressEvery }
  query :=
    { defaultSearchLimit := upper.query.defaultSearchLimit <|> lower.query.defaultSearchLimit
      maxSearchLimit := upper.query.maxSearchLimit <|> lower.query.maxSearchLimit }

end Settings

end SymbolAtlas
