import SymbolAtlas.Number.Binary64
import SymbolAtlas.Number.Bounds
import SymbolAtlas.Text.Reader
import SymbolAtlas.Toml.Basic

/-!
Reading TOML text into entries.  Containers may stand in one another at most `nestingLimit` deep
and a key may have at most `pathLimit` parts.
-/

namespace SymbolAtlas.Toml

def nestingLimit : Nat := 79

def pathLimit : Nat := 79

def isBlank (c : Char) : Bool := c == ' ' || c == '\t'

def skipBlank (cs : List Char) : List Char := cs.dropWhile isBlank

/-- Tabs and everything that is not a control character. -/
def isTextChar (c : Char) : Bool := c == '\t' || (decide (32 ≤ c.toNat) && c.toNat != 127)

def newline? : List Char → Option (List Char)
  | '\n' :: r => some r
  | '\r' :: '\n' :: r => some r
  | _ => none

def lineBreak? : List Char → Option (List Char)
  | [] => some []
  | cs => newline? cs

/-- The text after the rest of a line that holds blanks and a comment at most. -/
def lineEnd? (cs : List Char) : Option (List Char) :=
  match skipBlank cs with
  | '#' :: r => lineBreak? (r.dropWhile isTextChar)
  | r => lineBreak? r

def skipLines (inComment : Bool) : List Char → List Char
  | [] => []
  | '\n' :: r => skipLines false r
  | '\r' :: '\n' :: r => skipLines false r
  | c :: r =>
    if inComment then if isTextChar c then skipLines true r else c :: r
    else if isBlank c then skipLines false r
    else if c = '#' then skipLines true r
    else c :: r

def codeChar? (digits : List Char) : Option Char :=
  if digits.all fun c => (digitValue? 16 c).isSome then
    let n := digitsValue 16 0 digits
    if n < 0xD800 ∨ (0xE000 ≤ n ∧ n < 0x110000) then some (Char.ofNat n) else none
  else none

def readCode (count : Nat) : Reader Char := fun cs =>
  if cs.length < count then none
  else (codeChar? (cs.take count)).map fun c => (c, cs.drop count)

def readEscape : Reader Char
  | 'b' :: r => some ('\x08', r)
  | 't' :: r => some ('\t', r)
  | 'n' :: r => some ('\n', r)
  | 'f' :: r => some ('\x0c', r)
  | 'r' :: r => some ('\r', r)
  | '\x22' :: r => some ('\x22', r)
  | '\\' :: r => some ('\\', r)
  | 'u' :: r => readCode 4 r
  | 'U' :: r => readCode 8 r
  | _ => none

/-- A piece of a text in double quotes. -/
def basicPiece : Reader (Option (List Char))
  | '\x22' :: r => some (none, r)
  | '\\' :: r => (readEscape r).map fun p => (some [p.1], p.2)
  | c :: r => if isTextChar c then some (some [c], r) else none
  | [] => none

def literalPiece : Reader (Option (List Char))
  | '\x27' :: r => some (none, r)
  | c :: r => if isTextChar c then some (some [c], r) else none
  | [] => none

/-- Quotes inside a text that three of them close: one or two are text, three close it, and of
four or five the first ones are text. -/
def quotePiece (quote : Char) : Reader (Option (List Char)) := fun cs =>
  let count := (cs.takeWhile fun c => c == quote).length
  if count = 3 then some (none, cs.drop 3)
  else if count < 3 then some (some (cs.take count), cs.drop count)
  else if count < 6 then some (some (cs.take (count - 3)), cs.drop (count - 3))
  else none

/-- A backslash at the end of a line hides the blanks and line breaks after it. -/
def hiddenBreak? (cs : List Char) : Option (List Char) :=
  (newline? (skipBlank cs)).map fun r =>
    r.dropWhile fun c => isBlank c || c == '\n' || c == '\r'

def hasLoneReturn : List Char → Bool
  | '\r' :: '\n' :: r => hasLoneReturn r
  | '\r' :: _ => true
  | _ :: r => hasLoneReturn r
  | [] => false

def longBasicPiece : Reader (Option (List Char)) := fun cs =>
  match cs with
  | '\x22' :: _ => quotePiece '\x22' cs
  | '\\' :: r =>
    match hiddenBreak? r with
    | some rest =>
      if hasLoneReturn (r.take (r.length - rest.length)) then none else some (some [], rest)
    | none => (readEscape r).map fun p => (some [p.1], p.2)
  | c :: r =>
    match newline? cs with
    | some rest => some (some ['\n'], rest)
    | none => if isTextChar c then some (some [c], r) else none
  | [] => none

def longLiteralPiece : Reader (Option (List Char)) := fun cs =>
  match cs with
  | '\x27' :: _ => quotePiece '\x27' cs
  | c :: r =>
    match newline? cs with
    | some rest => some (some ['\n'], rest)
    | none => if isTextChar c then some (some [c], r) else none
  | [] => none

def readText (piece : Reader (Option (List Char))) : Reader String := fun cs =>
  (readPieces piece (cs.length + 1) cs).map fun p => (String.ofList p.1, p.2)

/-- A long text; a line break right after the opening quotes does not belong to it. -/
def readLongText (piece : Reader (Option (List Char))) : Reader String := fun cs =>
  readText piece ((newline? cs).getD cs)

def readQuoted : Reader String
  | '\x22' :: '\x22' :: '\x22' :: r => readLongText longBasicPiece r
  | '\x22' :: r => readText basicPiece r
  | '\x27' :: '\x27' :: '\x27' :: r => readLongText longLiteralPiece r
  | '\x27' :: r => readText literalPiece r
  | _ => none

/-- Letters, digits, the hyphen and the underscore make up a bare key. -/
def isKeyChar (c : Char) : Bool := c.isAlphanum || c == '-' || c == '_'

def readKeyPart : Reader String
  | '\x22' :: r => readText basicPiece r
  | '\x27' :: r => readText literalPiece r
  | cs =>
    match cs.takeWhile isKeyChar with
    | [] => none
    | key => some (String.ofList key, cs.dropWhile isKeyChar)

/-- Parts of a key with dots between them; blanks may stand around each part. -/
def readPathFrom : Nat → Reader Path
  | 0, _ => none
  | fuel + 1, cs => do
    let (key, r) ← readKeyPart (skipBlank cs)
    match skipBlank r with
    | '.' :: r =>
      let (keys, r) ← readPathFrom fuel r
      some (key :: keys, r)
    | r => some ([key], r)

def readPath : Reader Path := readPathFrom pathLimit

/-- Digits in a base after the first one, where an underscore may stand between two digits. -/
def readMoreDigits (base : Nat) : Reader (List Char)
  | '_' :: c :: r =>
    if (digitValue? base c).isSome then (readMoreDigits base r).map fun p => (c :: p.1, p.2)
    else none
  | '_' :: [] => none
  | c :: r =>
    if (digitValue? base c).isSome then (readMoreDigits base r).map fun p => (c :: p.1, p.2)
    else some ([], c :: r)
  | [] => some ([], [])

def readSpacedDigits (base : Nat) : Reader (List Char)
  | c :: r =>
    if (digitValue? base c).isSome then (readMoreDigits base r).map fun p => (c :: p.1, p.2)
    else none
  | [] => none

/-- Decimal digits of which the first is zero only if it is the only one. -/
def readDecimalDigits : Reader (List Char)
  | '0' :: r => some (['0'], r)
  | cs => readSpacedDigits 10 cs

def readSign : List Char → Bool × List Char
  | '+' :: r => (false, r)
  | '-' :: r => (true, r)
  | cs => (false, cs)

def int64? (negative : Bool) (n : Nat) : Option Value :=
  if negative then if n ≤ int64Bound then some (.scalar (.int (-(n : Int)))) else none
  else if n < int64Bound then some (.scalar (.int n)) else none

def readBasedInteger (base : Nat) : Reader Value := fun cs => do
  let (digits, r) ← readSpacedDigits base cs
  return (← int64? false (digitsValue base 0 digits), r)

def readInteger : Reader Value
  | '0' :: 'x' :: r => readBasedInteger 16 r
  | '0' :: 'o' :: r => readBasedInteger 8 r
  | '0' :: 'b' :: r => readBasedInteger 2 r
  | cs => do
    let (negative, r) := readSign cs
    let (digits, r) ← readDecimalDigits r
    return (← int64? negative (digitsValue 10 0 digits), r)

/-- Whether `digits * 10 ^ e` is beyond the largest binary number. -/
def overflows (digits : List Char) (e : Int) : Bool :=
  let significand := digits.dropWhile fun c => c == '0'
  let size := (significand.length : Int) + e
  if significand.isEmpty || size < -330 then false
  else if 310 < size then true
  else
    let n := digitsValue 10 0 significand
    (Binary64.nearest? (n * Nat.pow 10 e.toNat) (Nat.pow 10 (-e).toNat)).isNone

def readFraction : Reader (Option (List Char))
  | '.' :: r => (readSpacedDigits 10 r).map fun p => (some p.1, p.2)
  | cs => some (none, cs)

def readExponentDigits : Reader (Option Int) := fun cs =>
  let (negative, r) := readSign cs
  (readSpacedDigits 10 r).map fun p =>
    let n : Int := digitsValue 10 0 p.1
    (some (if negative then -n else n), p.2)

def readExponent : Reader (Option Int)
  | 'e' :: r => readExponentDigits r
  | 'E' :: r => readExponentDigits r
  | cs => some (none, cs)

/-- A number with a fraction or an exponent, or one of the special ones.  A positive number
must not be too large. -/
def readFloat : Reader Value := fun cs =>
  let (negative, r) := readSign cs
  match r with
  | 'i' :: 'n' :: 'f' :: r => some (.scalar .float, r)
  | 'n' :: 'a' :: 'n' :: r => some (.scalar .float, r)
  | r => do
    let (whole, r) ← readDecimalDigits r
    let (fraction, r) ← readFraction r
    let (exponent, r) ← readExponent r
    if fraction.isNone && exponent.isNone then none
    else
      let places := fraction.getD []
      if !negative && overflows (whole ++ places) (exponent.getD 0 - places.length) then none
      else return (.scalar .float, r)

def readFixed (count low high : Nat) : Reader Nat := fun cs =>
  let digits := cs.take count
  if digits.length = count && digits.all isDigit then
    let n := digitsValue 10 0 digits
    if low ≤ n ∧ n ≤ high then some (n, cs.drop count) else none
  else none

def expect (c : Char) : List Char → Option (List Char)
  | d :: r => if d = c then some r else none
  | [] => none

def daysInMonth (year month : Nat) : Nat :=
  if month = 2 then
    if year % 4 = 0 ∧ (year % 100 ≠ 0 ∨ year % 400 = 0) then 29 else 28
  else if month = 4 ∨ month = 6 ∨ month = 9 ∨ month = 11 then 30
  else 31

/-- The text after a date of the calendar. -/
def skipDate (cs : List Char) : Option (List Char) := do
  let (year, r) ← readFixed 4 0 9999 cs
  let (month, r) ← readFixed 2 1 12 (← expect '-' r)
  let (_, r) ← readFixed 2 1 (daysInMonth year month) (← expect '-' r)
  return r

def skipTime (cs : List Char) : Option (List Char) := do
  let (_, r) ← readFixed 2 0 23 cs
  let (_, r) ← readFixed 2 0 59 (← expect ':' r)
  let (_, r) ← readFixed 2 0 60 (← expect ':' r)
  match r with
  | '.' :: places =>
    match readDigits places with
    | some (_, r) => return r
    | none => return r
  | _ => return r

def skipOffset : List Char → Option (List Char)
  | 'Z' :: r => some r
  | 'z' :: r => some r
  | c :: r =>
    if c = '+' ∨ c = '-' then do
      let (_, r) ← readFixed 2 0 23 r
      let (_, r) ← readFixed 2 0 59 (← expect ':' r)
      return r
    else some (c :: r)
  | [] => some []

def readDatetime : Reader Value := fun cs =>
  match skipDate cs with
  | some r =>
    match r with
    | c :: time =>
      if c = 'T' ∨ c = 't' ∨ c = ' ' then
        match skipTime time with
        | some r => (skipOffset r).map fun r => (.scalar .datetime, r)
        | none => some (.scalar .datetime, r)
      else some (.scalar .datetime, r)
    | [] => some (.scalar .datetime, [])
  | none => (skipTime cs).map fun r => (.scalar .datetime, r)

def readScalar : Reader Value
  | 't' :: 'r' :: 'u' :: 'e' :: r => some (.scalar (.bool true), r)
  | 'f' :: 'a' :: 'l' :: 's' :: 'e' :: r => some (.scalar (.bool false), r)
  | '\x22' :: r => (readQuoted ('\x22' :: r)).map fun p => (.scalar (.text p.1), p.2)
  | '\x27' :: r => (readQuoted ('\x27' :: r)).map fun p => (.scalar (.text p.1), p.2)
  | cs => readDatetime cs <|> readFloat cs <|> readInteger cs

/-- Items of an array up to its closing bracket; a comma may stand behind the last one. -/
def readArrayItems (value : Reader Value) : Nat → Reader (List Value)
  | 0, _ => none
  | fuel + 1, cs =>
    match skipLines false cs with
    | ']' :: r => some ([], r)
    | cs => do
      let (v, r) ← value cs
      match skipLines false r with
      | ',' :: r =>
        let (vs, r) ← readArrayItems value fuel r
        some (v :: vs, r)
      | ']' :: r => some ([v], r)
      | _ => none

def readAssignment (value : Reader Value) : Reader (Path × Value) := fun cs => do
  let (path, r) ← readPath cs
  let (v, r) ← value (skipBlank (← expect '=' r))
  return ((path, v), r)

def readInlineMembers (value : Reader Value) : Nat → Reader (List (Path × Value))
  | 0, _ => none
  | fuel + 1, cs => do
    let (m, r) ← readAssignment value cs
    match skipBlank r with
    | ',' :: r =>
      let (ms, r) ← readInlineMembers value fuel r
      some (m :: ms, r)
    | '\x7d' :: r => some ([m], r)
    | _ => none

def readInline (value : Reader Value) : Reader (List (Path × Value)) := fun cs =>
  match skipBlank cs with
  | '\x7d' :: r => some ([], r)
  | cs => readInlineMembers value (cs.length + 1) cs

def readValue : Nat → Reader Value
  | 0 => fun cs =>
    match cs with
    | '[' :: _ => none
    | '\x7b' :: _ => none
    | _ => readScalar cs
  | depth + 1 => fun cs =>
    match cs with
    | '[' :: r =>
      (readArrayItems (readValue depth) (r.length + 1) r).map fun p => (.array p.1, p.2)
    | '\x7b' :: r => (readInline (readValue depth) r).map fun p => (.inline p.1, p.2)
    | _ => readScalar cs

def readEntry : Reader Entry
  | '[' :: '[' :: r => do
    let (path, r) ← readPath r
    let r ← lineEnd? (← expect ']' (← expect ']' r))
    return (.arrayHeader path, r)
  | '[' :: r => do
    let (path, r) ← readPath r
    let r ← lineEnd? (← expect ']' r)
    return (.header path, r)
  | cs => do
    let ((path, v), r) ← readAssignment (readValue nestingLimit) cs
    return (.assign path v, ← lineEnd? r)

/-- All entries of a text; every line takes at least one character. -/
def readEntries : Nat → List Char → Option (List Entry)
  | 0, _ => none
  | fuel + 1, cs =>
    match skipBlank cs with
    | [] => some []
    | c :: r =>
      if c = '#' ∨ c = '\n' ∨ c = '\r' then do
        readEntries fuel (← lineEnd? (c :: r))
      else do
        let (entry, r) ← readEntry (c :: r)
        let entries ← readEntries fuel r
        return entry :: entries

def entries? (text : String) : Option (List Entry) :=
  let cs := match text.toList with
    | '\ufeff' :: r => r
    | cs => cs
  readEntries (cs.length + 1) cs

end SymbolAtlas.Toml
