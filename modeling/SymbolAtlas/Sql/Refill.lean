import SymbolAtlas.Number.Varint
import SymbolAtlas.Sql.FullText
import SymbolAtlas.Sql.Part

/-!
Filling a full-text table anew.  Its index is kept in tables of its own, which are read when the
full-text table is first used, then emptied and written again.
-/

namespace SymbolAtlas.Sql

namespace FullText

def padding : Nat := 20

def small? (bytes : List UInt8) : Option (Nat × List UInt8) :=
  (varint bytes).map fun (n, rest) => (n % int32Bound, rest)

def skip? : (count : Nat) → List UInt8 → Option (List UInt8)
  | 0, bytes => some bytes
  | count + 1, bytes => (varint bytes).bind fun (_, rest) => skip? count rest

/-- What follows the descriptions of so many segments, if they are sound: the pages of a segment
end where they start or after that. -/
def segments? (extra : Nat) : (count : Nat) → List UInt8 → Option (List UInt8)
  | 0, bytes => some bytes
  | count + 1, bytes =>
    if bytes.length ≤ padding then none
    else do
      let (_, rest) ← varint bytes
      let (first, rest) ← small? rest
      let (last, rest) ← small? rest
      let rest ← skip? extra rest
      if last < first then none else segments? extra count rest

/-- Whether the descriptions of so many levels are sound and have so many segments.  A level whose
segments are being merged has another one with segments after it. -/
def areLevels (extra : Nat) : (count merged : Nat) → (segments : Int) → List UInt8 → Bool
  | 0, _, segments, _ => segments = 0
  | count + 1, merged, segments, bytes =>
    let sound := do
      let (merging, rest) ← small? bytes
      let (total, rest) ← small? rest
      if total < merging || (merged ≠ 0 && total = 0) || (count = 0 && merging ≠ 0) then none
      else some (merging, total, ← segments? extra total rest)
    match sound with
    | none => false
    | some (merging, total, rest) =>
      bytes.length > padding && areLevels extra count merging (segments - total) rest

def mostSegments : Nat := 2000

/-- Whether a description of an index is sound.  A later form of it says more of each segment. -/
def isDescription (bytes : List UInt8) : Bool :=
  let bytes := bytes ++ List.replicate padding 0
  let isLater := (bytes.drop 4).take 4 = [0xFF, 0, 0, 1]
  let counts := do
    let (levels, rest) ← small? (bytes.drop (if isLater then 8 else 4))
    let (segments, rest) ← small? rest
    some (levels, segments, ← skip? 1 rest)
  match counts with
  | none => false
  | some (levels, segments, rest) =>
    levels ≤ mostSegments && segments ≤ mostSegments
      && areLevels (if isLater then 5 else 0) levels 0 segments rest

def descriptionRow : Int := 10

def description? (c : Catalog) (contents : Contents) (name : String) : Option (List UInt8) :=
  match c.relation? (partName name "data") with
  | some (.table t) =>
    if t.isClustered then none
    else
      match ((contents t).find? (·.number = some descriptionRow)).bind (·.value? "block") with
      | some (.blob bytes) => some bytes
      | some (.text s) => some s.toUTF8.toList
      | _ => none
  | _ => none

def initialRows (name table : String) : List Row :=
  if table = partName name "data" then
    [⟨some 1, [("id", .integer 1), ("block", .blob [])]⟩,
     ⟨some descriptionRow, [("id", .integer descriptionRow), ("block", .blob [])]⟩]
  else if table = partName name "config" then
    [⟨none, [("k", .text "version"), ("v", .integer 4)]⟩]
  else []

/-- The rows of the settings of a full-text table. -/
def settings? (c : Catalog) (contents : Contents) (name : String) : Option (List Row) :=
  let table := partName name "config"
  if (c.readFault? table "" ["k", "v"]).isSome then none else some (c.rowsOf contents table)

def formOf (settings : List Row) : Int :=
  let said := settings.filterMap fun row =>
    match row.value? "k" with
    | some (.text k) => if sameName k "version" then row.value? "v" else none
    | _ => none
  Int.bmod ((said.getLast?.map Value.toInteger).getD 0) word32Bound

/-- Whether there are columns and all have names of their own; two more are there in any case. -/
def areDistinct (f : FullText) (name : String) : Bool :=
  let names := f.columns.map (·.name.toLower) ++ [name.toLower, "rank"]
  !f.columns.isEmpty && names.eraseDups.length = names.length

def useOutcome? (f : FullText) (c : Catalog) (contents : Contents) (name : String) :
    Option Outcome :=
  let isDescribed := ((description? c contents name).map isDescription).getD false
  match (if f.areDistinct name && isDescribed then settings? c contents name else none) with
  | none => some (.constructorFailed name)
  | some settings =>
    let form := formOf settings
    if form = 4 || form = 5 then none
    else
      some (.refused
        s!"invalid fts5 file format (found {form}, expected 4 or 5) - run 'rebuild'")

def texts (f : FullText) (name : String) : String × List String :=
  match f.source with
  | .table table => (table, f.columns.map (·.name))
  | _ => (partName name "content", (List.range f.columns.length).map fun k => s!"c{k}")

/-- What keeps the texts from being read, which are not looked for in virtual tables. -/
def textsFault? (f : FullText) (c : Catalog) (name : String) : Option String :=
  let (table, columns) := f.texts name
  let isVirtual := fun (source : String) =>
    match c.relation? source with
    | some (.virtualTable _) => true
    | _ => false
  let sources := match c.relation? table with
    | some (.view v) => v.sources
    | _ => [table]
  ((sources.find? isVirtual).map fun source => s!"no such table: main.{source}")
  |>.or (c.readFault? table "T." (f.rowName.getD "rowid" :: columns))

/-- The rows with texts: the number of each and those of its texts whose words are kept. -/
def textRows (f : FullText) (c : Catalog) (contents : Contents) (name : String) :
    List (Int × List String) :=
  let (table, columns) := f.texts name
  let kept := ((f.columns.zip columns).filter fun (c, _) => c.isIndexed).map (·.2)
  (c.rowsOf contents table).map fun row =>
    let number := ((row.value? (f.rowName.getD "rowid")).map Value.toInteger).or row.number
    (number.getD 0, kept.map row.text)

def hasWords (f : FullText) (s : String) : Bool :=
  if (f.tokenizer.map (sameName · "trigram")).getD false then 3 ≤ s.length
  else mayHaveWords s

def recordOutcome? (c : Catalog) (name : String) (number : Int) : Option Outcome :=
  match c.writePart? (partName name "data") (some ["id", "block"]) [.integer number, .blob []]
      (some "REPLACE") with
  | some .skipped => some (.refused "database disk image is malformed")
  | outcome => outcome

def isNumbered (c : Catalog) (name : String) : Bool :=
  match c.relation? (partName name "data") with
  | some (.table t) => (t.rowNumber.map (sameName · "id")).getD false
  | _ => false

/-- How it ends early to fill a full-text table anew. -/
def refillOutcome? (f : FullText) (c : Catalog) (contents : Contents) (name : String) :
    Option Outcome :=
  let rows := f.textRows c contents name
  (f.useOutcome? c contents name)
  |>.or (if f.source = .nowhere then
      some (.refused "'rebuild' may not be used with a contentless fts5 table")
    else none)
  |>.or (c.clearPart? contents (partName name "data"))
  |>.or (c.clearPart? contents (partName name "idx"))
  |>.or (if f.keepsSizes then c.clearPart? contents (partName name "docsize") else none)
  |>.or (recordOutcome? c name 1)
  |>.or (recordOutcome? c name descriptionRow)
  |>.or (Outcome.refusal?
    (c.writePart? (partName name "config") none [.text "version", .integer 4] (some "REPLACE")))
  |>.or ((f.textsFault? c name).map .refused)
  |>.or (if f.keepsSizes then rows.findSome? fun (number, _) =>
      Outcome.refusal? (c.writePart? (partName name "docsize") none [.integer number, .blob []]
        (some "REPLACE"))
    else none)
  |>.or (if isNumbered c name then none
    else some (.refused "database disk image is malformed"))
  |>.or (if rows.any (·.2.any f.hasWords) then
      Outcome.refusal? (c.writePart? (partName name "idx") (some ["segid", "term", "pgno"])
        [.integer 1, .blob [], .integer 1] none)
    else none)

end FullText

end SymbolAtlas.Sql
