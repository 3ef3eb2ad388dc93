import SymbolAtlas.Sql.Part
import SymbolAtlas.Sql.Token

/-!
Tables of documents, which are full-text tables of an older kind.  Their arguments are columns, a
tokenizer and, in the later of two forms, options.
-/

namespace SymbolAtlas.Sql

/-- A table of documents as its arguments describe it. -/
structure DocumentTable where
  isLater : Bool
  columns : List String := []
  hasTokenizer : Bool := false
  keepsSizes : Bool := isLater
  lengths : String := ""
  packing : Option String := none
  unpacking : Option String := none
  source : Option String := none
  language : Option String := none
  unindexed : List String := []

namespace DocumentTable

def isNameChar (c : Char) : Bool := c.isAlphanum || c = '_' || c = '$' || 128 ≤ c.toNat

def isQuote (c : Char) : Bool := c = '\x27' || c = '\x22' || c = '\x60' || c = '['

def closing (quote : Char) : Char := if quote = '[' then ']' else quote

/-- The word at the front of a text, in quotes or not, and what follows it.  Anything between words
is passed over. -/
def nextWord? : List Char → Option (List Char × List Char)
  | [] => none
  | c :: r =>
    if isQuote c then
      let length := if c = '[' then (r.takeWhile (· ≠ ']')).length + 1 else (quotedLength c r).1
      some (c :: r.take length, r.drop length)
    else if isNameChar c then
      let word := r.takeWhile isNameChar
      some (c :: word, r.drop word.length)
    else nextWord? r

def dequoted (s : List Char) : String :=
  match s with
  | c :: r => if isQuote c then String.ofList (unquoted (closing c) r) else String.ofList s
  | [] => ""

def words : (fuel : Nat) → List Char → List String
  | 0, _ => []
  | fuel + 1, s =>
    match nextWord? s with
    | none => []
    | some (word, rest) => dequoted word :: words fuel rest

def tokenizerFault? (s : List Char) : Option String :=
  let isOption := fun (o : String) =>
    ["remove_diacritics=0", "remove_diacritics=1", "remove_diacritics=2"].contains o
      || "tokenchars=".toList.isPrefixOf o.toList || "separators=".toList.isPrefixOf o.toList
  match words s.length s with
  | [] => some "unknown tokenizer: "
  | name :: options =>
    let isRefused :=
      if name = "simple" then ((options[1]?).getD "").toList.any fun c => 128 ≤ c.toNat
      else if name = "unicode61" then !options.all isOption
      else false
    if !(["simple", "porter", "unicode61"].contains name) then some s!"unknown tokenizer: {name}"
    else if isRefused then some "unknown tokenizer"
    else none

def setOption (d : DocumentTable) (argument key value : String) :
    Except String DocumentTable :=
  match key.toLower with
  | "matchinfo" =>
    if sameName value "fts3" then .ok { d with keepsSizes := false }
    else .error s!"unrecognized matchinfo: {value}"
  | "prefix" => .ok { d with lengths := value }
  | "compress" => .ok { d with packing := some value }
  | "uncompress" => .ok { d with unpacking := some value }
  | "order" =>
    if sameName value "asc" || sameName value "desc" then .ok d
    else .error s!"unrecognized order: {value}"
  | "content" => .ok { d with source := some value }
  | "languageid" => .ok { d with language := some value }
  | "notindexed" => .ok { d with unindexed := d.unindexed ++ [value] }
  | _ => .error s!"unrecognized parameter: {argument}"

def addArgument (d : DocumentTable) (argument : String) : Except String DocumentTable :=
  let cs := argument.toList
  let key := cs.takeWhile (· ≠ '=')
  let namesTokenizer := !d.hasTokenizer && 8 < cs.length
    && sameName (String.ofList (cs.take 8)) "tokenize" && !(cs[8]?.map isNameChar).getD false
  if namesTokenizer then
    match tokenizerFault? (cs.drop 9) with
    | some fault => .error fault
    | none => .ok { d with hasTokenizer := true }
  else if d.isLater && key.length < cs.length then
    d.setOption argument (String.ofList key) (dequoted (cs.drop (key.length + 1)))
  else .ok { d with columns := d.columns ++ [argument] }

/-- Whether so many lengths can be read from a text, with some character after each.  A length of
zero or one that is too great counts for nothing. -/
def areLengths : (count : Nat) → List Char → Bool
  | 0, _ => true
  | count + 1, s =>
    let digits := s.takeWhile Char.isDigit
    !digits.isEmpty && areLengths count (s.drop (digits.length + 1))

def names (d : DocumentTable) : List String :=
  d.columns.map fun argument => ((nextWord? argument.toList).map fun w => dequoted w.1).getD ""

/-- The table with the columns of the relation that has its texts, if it lists none, or with one
column if there is nothing else. -/
def settled (d : DocumentTable) (c : Catalog) : Except String DocumentTable :=
  if !d.columns.isEmpty then .ok d
  else
    match d.source with
    | none => .ok { d with columns := ["content"] }
    | some source =>
      match c.readFault? source "" [] with
      | some fault => .error fault
      | none =>
        let columns := ((c.relation? source).bind c.columnsOf?).getD []
        let language := d.language.bind fun l => columns.find? (sameName l)
        let columns := (language.map columns.erase).getD columns
        .ok { d with columns := if columns.isEmpty then ["content"] else columns }

def fault? (d : DocumentTable) : Option String :=
  let count := if d.lengths = "" then 0 else (d.lengths.toList.filter (· = ',')).length + 1
  let stray := d.unindexed.reverse.find? fun u => !d.names.any (sameName u)
  let lacking := fun (kind : String) => some s!"missing {kind} parameter in fts4 constructor"
  (if areLengths count d.lengths.toList then none
    else some s!"error parsing prefix parameter: {d.lengths}")
  |>.or (stray.map fun u => s!"no such column: {u}")
  |>.or (match d.source, d.packing, d.unpacking with
    | none, none, some _ => lacking "compress"
    | none, some _, none => lacking "uncompress"
    | _, _, _ => none)

def ofArguments (isLater : Bool) (c : Catalog) (arguments : List String) :
    Except String DocumentTable := do
  let d ← (← arguments.foldlM addArgument { isLater }).settled c
  match d.fault? with
  | some fault => throw fault
  | none => return d

def areDistinct (d : DocumentTable) (name : String) : Bool :=
  let names := (d.names ++ [name, "docid", d.language.getD "__langid"]).map String.toLower
  names.eraseDups.length = names.length

/-- What is read of the texts: the relation that has them, the column with the number of the text
and the other columns. -/
def texts (d : DocumentTable) (name : String) : String × String × List String :=
  match d.source with
  | some source => (source, "rowid", d.names ++ d.language.toList)
  | none =>
    let own := d.names.mapIdx fun k column => s!"c{k}{column}"
    (partName name "content", "docid", own ++ (d.language.map fun _ => "langid").toList)

def isStuck (d : DocumentTable) : Bool :=
  match d.source, d.unpacking with
  | none, some function =>
    match callee function 1 with
    | .found _ => false
    | _ => true
  | _, _ => false

/-- How it ends early to fill a table of documents anew. -/
def refillOutcome? (d : DocumentTable) (c : Catalog) (contents : Contents) (name : String) :
    Option Outcome :=
  let hasTotals := d.isLater || c.hasRelation (partName name "stat")
  let parts := ["segments", "segdir"] ++ (if d.keepsSizes then ["docsize"] else [])
    ++ (if hasTotals then ["stat"] else [])
  let (table, number, columns) := d.texts name
  let rows := c.rowsOf contents table
  let hasWords := rows.any fun row => (d.names.zip columns).any fun (column, stored) =>
    !d.unindexed.any (sameName column) && mayHaveWords (row.text stored)
  (if d.areDistinct name then none else some (.constructorFailed name))
  |>.or (parts.findSome? fun suffix => c.clearPart? contents (partName name suffix))
  |>.or (if d.isStuck || (c.readFault? table "" (number :: columns)).isSome then some .logicError
    else none)
  |>.or (if d.keepsSizes then rows.findSome? fun _ => Outcome.refusal?
      (c.writePart? (partName name "docsize") none [.integer 1, .blob []] (some "REPLACE"))
    else none)
  |>.or (if !d.isLater then none
    else if (c.readFault? (partName name "stat") "" ["id", "value"]).isSome then some .logicError
    else Outcome.refusal? (c.writePart? (partName name "stat") none [.integer 0, .blob []]
      (some "REPLACE")))
  |>.or (if !hasWords then none
    else if (c.readFault? (partName name "segments") "" ["blockid"]).isSome
        || (c.readFault? (partName name "segdir") "" ["level", "idx"]).isSome then
      some .logicError
    else Outcome.refusal? (c.writePart? (partName name "segdir") none
      [.integer 0, .integer 0, .integer 0, .integer 0, .integer 0, .blob []] (some "REPLACE")))

end DocumentTable

end SymbolAtlas.Sql
