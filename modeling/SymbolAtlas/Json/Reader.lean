import SymbolAtlas.Json.Basic
import SymbolAtlas.Number.Bounds
import SymbolAtlas.Text.Reader

/-!
Reading JSON text.  The grammar is strict: no trailing commas, no leading zeros, no raw control
characters, no unpaired surrogates, nothing but blanks around the value, and at most
`nestingLimit` containers inside one another.
-/

namespace SymbolAtlas

namespace Json

def nestingLimit : Nat := 127

def isBlank (c : Char) : Bool := c == ' ' || c == '\t' || c == '\n' || c == '\r'

def skipBlank (cs : List Char) : List Char := cs.dropWhile isBlank

def codeUnit? (a b c d : Char) : Option Nat := do
  let a ← digitValue? 16 a
  let b ← digitValue? 16 b
  let c ← digitValue? 16 c
  let d ← digitValue? 16 d
  return a * 4096 + b * 256 + c * 16 + d

def isHighSurrogate (n : Nat) : Bool := decide (0xD800 ≤ n) && decide (n < 0xDC00)

def isLowSurrogate (n : Nat) : Bool := decide (0xDC00 ≤ n) && decide (n < 0xE000)

/-- What stands after a backslash: a character and the rest.  A high surrogate has to be
followed by a low one. -/
def readEscape : Reader Char
  | '\x22' :: r => some ('\x22', r)
  | '\\' :: r => some ('\\', r)
  | '/' :: r => some ('/', r)
  | 'b' :: r => some ('\x08', r)
  | 'f' :: r => some ('\x0c', r)
  | 'n' :: r => some ('\n', r)
  | 'r' :: r => some ('\r', r)
  | 't' :: r => some ('\t', r)
  | 'u' :: a :: b :: c :: d :: r =>
    match codeUnit? a b c d with
    | none => none
    | some u =>
      if isLowSurrogate u then none
      else if isHighSurrogate u then
        match r with
        | '\\' :: 'u' :: a' :: b' :: c' :: d' :: r' =>
          match codeUnit? a' b' c' d' with
          | none => none
          | some w =>
            if isLowSurrogate w then
              some (Char.ofNat (0x10000 + (u - 0xD800) * 1024 + (w - 0xDC00)), r')
            else none
        | _ => none
      else some (Char.ofNat u, r)
  | _ => none

theorem readEscape_length {cs r : List Char} {c : Char} (h : readEscape cs = some (c, r)) :
    r.length < cs.length := by
  unfold readEscape at h
  split at h
  all_goals try (simp only [Option.some.injEq, Prod.mk.injEq] at h; obtain ⟨-, rfl⟩ := h; simp)
  · rename_i a b d e r'
    split at h
    · cases h
    · split at h
      · cases h
      · split at h
        · split at h
          · split at h
            · cases h
            · split at h
              · simp only [Option.some.injEq, Prod.mk.injEq] at h
                obtain ⟨-, rfl⟩ := h
                simp only [List.length_cons]
                omega
              · cases h
          · cases h
        · simp only [Option.some.injEq, Prod.mk.injEq] at h
          obtain ⟨-, rfl⟩ := h
          simp only [List.length_cons]
          omega
  · cases h

def readStringBody (cs : List Char) : Option (List Char × List Char) :=
  match cs with
  | [] => none
  | c :: r =>
    if c = '\x22' then some ([], r)
    else if c = '\\' then
      match _taken : readEscape r with
      | none => none
      | some (e, r') =>
        match readStringBody r' with
        | none => none
        | some (text, rest) => some (e :: text, rest)
    else if c.toNat < 32 then none
    else
      match readStringBody r with
      | none => none
      | some (text, rest) => some (c :: text, rest)
termination_by cs.length
decreasing_by
  · have := readEscape_length _taken
    simp only [List.length_cons]
    omega
  · simp

def readString : Reader String
  | '\x22' :: r => (readStringBody r).map fun p => (String.ofList p.1, p.2)
  | _ => none

/-- Takes digits into a significand as long as it stays below `2 ^ 64`; also returns how many
were taken and how many were left over. -/
def absorb (significand : Nat) : List Char → Nat × Nat × Nat
  | [] => (significand, 0, 0)
  | c :: rest =>
    let next := significand * 10 + (digitValue? 10 c).getD 0
    if next < word64Bound then
      let (s, taken, left) := absorb next rest
      (s, taken + 1, left)
    else (significand, 0, rest.length + 1)

structure NumberText where
  negative : Bool
  whole : List Char
  fraction : Option (List Char)
  exponent : Option Int

def readWhole : Reader (List Char) := fun cs =>
  match readDigits cs with
  | some ('0' :: _ :: _, _) => none
  | found => found

def readFraction : Reader (Option (List Char))
  | '.' :: r => (readDigits r).map fun p => (some p.1, p.2)
  | cs => some (none, cs)

def readExponentDigits (negative : Bool) : Reader (Option Int) := fun cs =>
  (readDigits cs).map fun p =>
    let n : Int := digitsValue 10 0 p.1
    (some (if negative then -n else n), p.2)

def readSignedExponent : Reader (Option Int)
  | '+' :: r => readExponentDigits false r
  | '-' :: r => readExponentDigits true r
  | cs => readExponentDigits false cs

def readExponent : Reader (Option Int)
  | 'e' :: r => readSignedExponent r
  | 'E' :: r => readSignedExponent r
  | cs => some (none, cs)

def readNumberText (negative : Bool) : Reader NumberText := fun cs => do
  let (whole, cs) ← readWhole cs
  let (fraction, cs) ← readFraction cs
  let (exponent, cs) ← readExponent cs
  return (⟨negative, whole, fraction, exponent⟩, cs)

/-- The value of a number as written; none if it is too large.  Whole numbers in the range of
integers are integers, and negative zero is a real. -/
def NumberText.value? (t : NumberText) : Option Json :=
  let (s, _, left) := absorb 0 t.whole
  let real := fun (significand : Nat) (e : Int) =>
    (Binary64.ofDecimal? significand e).map fun x => Json.real t.negative x
  match t.fraction, t.exponent with
  | none, none =>
    if 0 < left then real s left
    else if t.negative then
      if s = 0 ∨ int64Bound < s then real s 0 else some (.int (-(s : Int)))
    else some (.int s)
  | none, some e => real s (left + e)
  | some fraction, e =>
    let (s, taken, _) := absorb s fraction
    real s ((left : Int) - taken + e.getD 0)

def readNumber : Reader Json := fun cs => do
  let (t, rest) ← match cs with
    | '-' :: r => readNumberText true r
    | _ => readNumberText false cs
  let v ← t.value?
  return (v, rest)

def readScalar : Reader Json
  | 'n' :: 'u' :: 'l' :: 'l' :: r => some (null, r)
  | 't' :: 'r' :: 'u' :: 'e' :: r => some (bool true, r)
  | 'f' :: 'a' :: 'l' :: 's' :: 'e' :: r => some (bool false, r)
  | '\x22' :: r => (readString ('\x22' :: r)).map fun p => (str p.1, p.2)
  | cs => readNumber cs

def readItems {α : Type} (item : Reader α) (close : Char) : Nat → Reader (List α)
  | 0, _ => none
  | fuel + 1, cs => do
    let (x, r) ← item (skipBlank cs)
    match skipBlank r with
    | [] => none
    | c :: r =>
      if c = close then some ([x], r)
      else if c = ',' then
        let (xs, r) ← readItems item close fuel r
        some (x :: xs, r)
      else none

/-- What stands after an opening mark: nothing, or items.  Every item takes at least one
character, so the length of the text bounds their number. -/
def readSequence {α : Type} (item : Reader α) (close : Char) : Reader (List α) := fun cs =>
  match skipBlank cs with
  | [] => none
  | c :: r => if c = close then some ([], r) else readItems item close (c :: r).length (c :: r)

def readMember (value : Reader Json) : Reader (String × Json) := fun cs => do
  let (name, r) ← readString cs
  match skipBlank r with
  | ':' :: r =>
    let (v, r) ← value (skipBlank r)
    some ((name, v), r)
  | _ => none

/-- A value with at most `depth` containers inside one another. -/
def readValue : Nat → Reader Json
  | 0 => fun cs =>
    match cs with
    | '[' :: _ => none
    | '\x7b' :: _ => none
    | _ => readScalar cs
  | depth + 1 => fun cs =>
    match cs with
    | '[' :: r => (readSequence (readValue depth) ']' r).map fun p => (arr p.1, p.2)
    | '\x7b' :: r =>
      (readSequence (readMember (readValue depth)) '\x7d' r).map fun p => (obj p.1, p.2)
    | _ => readScalar cs

def ofChars? (cs : List Char) : Option Json :=
  match readValue nestingLimit (skipBlank cs) with
  | some (v, rest) => if (skipBlank rest).isEmpty then some v else none
  | none => none

def ofBytes? (bytes : List UInt8) : Option Json :=
  (String.fromUTF8? ⟨bytes.toArray⟩).bind fun s => ofChars? s.toList

end Json

end SymbolAtlas
