import SymbolAtlas.Sql.Catalog

/-!
Full-text tables.  Their arguments are columns and options; the rows may be kept in another table.
-/

namespace SymbolAtlas.Sql

/-- Where a full-text table has the texts of its rows. -/
inductive TextSource where
  | own
  | nowhere
  | table (name : String)
deriving DecidableEq

structure TextColumn where
  name : String
  isIndexed : Bool := true

/-- A full-text table as its arguments describe it. -/
structure FullText where
  columns : List TextColumn := []
  source : TextSource := .own
  rowName : Option String := none
  forgets : Bool := false
  keepsSizes : Bool := true
  tokenizer : Option String := none

namespace FullText

def isBareChar (c : Char) : Bool :=
  c.isAlphanum || c = '_' || c = '\x1a' || 128 ≤ c.toNat

def skipSpaces (cs : List Char) : List Char := cs.dropWhile (· = ' ')

def word? (cs : List Char) : Option (String × Bool × List Char) :=
  match cs with
  | [] => none
  | c :: r =>
    if c = '\x27' || c = '\x22' || c = '\x60' || c = '[' then
      let quote := if c = '[' then ']' else c
      some (String.ofList (unquoted quote r), true, r.drop (quotedLength quote r).1)
    else
      let bare := cs.takeWhile isBareChar
      if bare.isEmpty then none
      else some (String.ofList bare, false, cs.drop bare.length)

def isShortFor (short long : String) : Bool :=
  (short.map Char.toLower).toList.isPrefixOf long.toList

def lengthsFault? : (fuel : Nat) → (isFirst : Bool) → List Char → Option String
  | 0, _, _ => none
  | fuel + 1, isFirst, cs =>
    let cs := skipSpaces cs
    match cs with
    | [] => none
    | c :: r =>
      let cs := if !isFirst && c = ',' then skipSpaces r else cs
      let digits := cs.takeWhile Char.isDigit
      let n := digits.foldl (fun n c => n * 10 + (c.toNat - '0'.toNat)) 0
      if digits.isEmpty then some "malformed prefix=... directive"
      else if n = 0 || 1000 ≤ n then some "prefix length out of range (max 999)"
      else lengthsFault? fuel false (cs.drop digits.length)

def tokenizers : List String := ["unicode61", "ascii", "porter", "trigram"]

def tokenizerWords : (fuel : Nat) → List Char → Option (List String)
  | 0, _ => none
  | fuel + 1, cs =>
    if cs.isEmpty then some []
    else
      let cs := skipSpaces cs
      match word? cs with
      | none => none
      | some (word, isQuoted, rest) =>
        if isQuoted && cs.head? ≠ some '\x27' then none
        else (tokenizerWords fuel (skipSpaces rest)).map (word :: ·)

def flag (option value : String) : Except String Bool :=
  if value = "0" then .ok false
  else if value = "1" then .ok true
  else .error s!"malformed {option}=... directive"

def setOption (f : FullText) (option value : String) : Except String FullText :=
  if isShortFor option "prefix" then
    match lengthsFault? (value.length + 1) true value.toList with
    | some fault => .error fault
    | none => .ok f
  else if isShortFor option "tokenize" then
    if f.tokenizer.isSome then .error "multiple tokenize=... directives"
    else
      match tokenizerWords (value.length + 1) value.toList with
      | none => .error "parse error in tokenize directive"
      | some [] => .ok { f with tokenizer := some "" }
      | some (name :: _) =>
        if tokenizers.contains name.toLower then .ok { f with tokenizer := some name }
        else .error s!"no such tokenizer: {name}"
  else if isShortFor option "content" then
    if f.source ≠ .own then .error "multiple content=... directives"
    else .ok { f with source := if value = "" then .nowhere else .table value }
  else if isShortFor option "contentless_delete" then
    (flag "contentless_delete" value).map fun forgets => { f with forgets }
  else if isShortFor option "content_rowid" then
    if f.rowName.isSome then .error "multiple content_rowid=... directives"
    else .ok { f with rowName := some value }
  else if isShortFor option "columnsize" then
    (flag "columnsize" value).map fun keepsSizes => { f with keepsSizes }
  else if isShortFor option "detail" then
    if ["none", "full", "columns"].any (isShortFor value) && value ≠ "" then .ok f
    else .error "malformed detail=... directive"
  else if isShortFor option "tokendata" then (flag "tokendata" value).map fun _ => f
  else .error s!"unrecognized option: \"{option}\""

def addColumn (f : FullText) (name : String) (option : Option String) :
    Except String FullText :=
  if sameName name "rank" || sameName name "rowid" then
    .error s!"reserved fts5 column name: {name}"
  else
    match option with
    | none => .ok { f with columns := f.columns ++ [⟨name, true⟩] }
    | some o =>
      if sameName o "unindexed" then .ok { f with columns := f.columns ++ [⟨name, false⟩] }
      else .error s!"unrecognized column option: {o}"

/-- The table with one more argument: a column, perhaps with a word after it, or an option with
its value. -/
def addArgument (f : FullText) (argument : String) : Except String FullText :=
  let fault := s!"parse error in \"{argument}\""
  match word? argument.toList with
  | none => .error fault
  | some (first, isQuoted, rest) =>
    let rest := skipSpaces rest
    let isOption := rest.head? = some '='
    let rest := skipSpaces (if isOption then rest.drop 1 else rest)
    if isOption && isQuoted then .error fault
    else
      match rest, word? rest with
      | [], _ => if isOption then f.setOption first "" else f.addColumn first none
      | _, some (second, _, []) =>
        if isOption then f.setOption first second else f.addColumn first (some second)
      | _, _ => .error fault

def ofArguments (arguments : List String) : Except String FullText := do
  let f ← arguments.foldlM addArgument {}
  if f.forgets && f.source ≠ .nowhere then
    throw "contentless_delete=1 requires a contentless table"
  else if f.forgets && !f.keepsSizes then
    throw "contentless_delete=1 is incompatible with columnsize=0"
  else return f

end FullText

end SymbolAtlas.Sql
