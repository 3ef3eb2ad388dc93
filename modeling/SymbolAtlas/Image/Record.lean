import SymbolAtlas.Image.Basic
import SymbolAtlas.Number.Varint

/-!
Records: a header with the type of every column, then the columns one after the other.
-/

namespace SymbolAtlas

namespace Image

/-- A column of a record.  A real number has the bits of its binary form. -/
inductive Column where
  | null
  | integer (value : Int)
  | real (bits : Nat)
  | text (content : List UInt8)
  | blob (content : List UInt8)
deriving DecidableEq

namespace Column

def size (type : Nat) : Nat :=
  if 12 ≤ type then (type - 12) / 2
  else ([0, 1, 2, 3, 4, 6, 8, 8][type]?).getD 0

def unsigned (content : List UInt8) : Nat := content.foldl (fun n b => n * 256 + b.toNat) 0

def signed (content : List UInt8) : Int :=
  let n : Nat := unsigned content
  let bound : Nat := content.foldl (fun n _ => n * 256) 1
  if n * 2 < bound then n else (n : Int) - bound

def ofBytes (type : Nat) (content : List UInt8) : Column :=
  if 12 ≤ type then (if type % 2 = 0 then blob content else text content)
  else if type = 7 then real (unsigned content)
  else if type = 8 then integer 0
  else if type = 9 then integer 1
  else if content.isEmpty then null
  else integer (signed content)

def units (bigEndian : Bool) : List UInt8 → List Nat
  | a :: b :: r =>
    (if bigEndian then a.toNat * 256 + b.toNat else b.toNat * 256 + a.toNat) :: units bigEndian r
  | _ => []

def replacement : Char := Char.ofNat 0xFFFD

/-- Text from sixteen-bit units.  A unit that is half of a character is taken together with the next
one, whatever that is; at the end of a text it stands for three bytes that encode nothing. -/
def textOfUnits : List Nat → List Char
  | [] => []
  | [u] =>
    if u < 0xD800 ∨ 0xDFFF < u then [Char.ofNat u] else [replacement, replacement, replacement]
  | u :: v :: r =>
    if 0xD800 ≤ u ∧ u ≤ 0xDFFF then
      Char.ofNat (0x10000 + (u - 0xD800) % 0x400 * 0x400 + v % 0x400) :: textOfUnits r
    else Char.ofNat u :: textOfUnits (v :: r)

def isSecond (first second : UInt8) : Bool :=
  let (least, most) : Nat × Nat :=
    if first = 0xE0 then (0xA0, 0xBF)
    else if first = 0xED then (0x80, 0x9F)
    else if first = 0xF0 then (0x90, 0xBF)
    else if first = 0xF4 then (0x80, 0x8F)
    else (0x80, 0xBF)
  least ≤ second.toNat && second.toNat ≤ most

def isFurther (b : UInt8) : Bool := 0x80 ≤ b.toNat && b.toNat ≤ 0xBF

/-- Text from bytes.  The longest run of bytes that begins a character but does not complete it is
replaced as a whole, and any other byte by itself. -/
def textOfBytes : List UInt8 → List Char
  | [] => []
  | a :: r =>
    let n := a.toNat
    let low := fun (b : UInt8) => b.toNat - 0x80
    if n < 0x80 then Char.ofNat n :: textOfBytes r
    else if n < 0xC2 || 0xF4 < n then replacement :: textOfBytes r
    else
      match r with
      | [] => [replacement]
      | b :: s =>
        if !isSecond a b then replacement :: textOfBytes (b :: s)
        else if n < 0xE0 then Char.ofNat ((n - 0xC0) * 64 + low b) :: textOfBytes s
        else
          match s with
          | [] => [replacement]
          | c :: u =>
            if !isFurther c then replacement :: textOfBytes (c :: u)
            else if n < 0xF0 then
              Char.ofNat (((n - 0xE0) * 64 + low b) * 64 + low c) :: textOfBytes u
            else
              match u with
              | [] => [replacement]
              | d :: v =>
                if !isFurther d then replacement :: textOfBytes (d :: v)
                else
                  Char.ofNat ((((n - 0xF0) * 64 + low b) * 64 + low c) * 64 + low d)
                    :: textOfBytes v

def decode (encoding : Encoding) (content : List UInt8) : List Char :=
  match encoding with
  | .utf8 => textOfBytes content
  | .utf16 bigEndian => textOfUnits (units bigEndian content)

/-- The text that a column is shown as, up to a zero character; a null has none. -/
def text? (encoding : Encoding) : Column → Option String
  | null => none
  | integer n => some (toString n)
  | real _ => some ""
  | text content | blob content =>
    some (String.ofList ((decode encoding content).takeWhile fun c => c.toNat ≠ 0))

end Column

def columnTypes : (count : Nat) → List UInt8 → Option (List Nat × Bool)
  | _, [] => some ([], true)
  | 0, _ => some ([], false)
  | count + 1, header => do
    let (type, rest) ← varint header
    let (types, whole) ← columnTypes count rest
    some (type :: types, whole)

def takeColumns : List Nat → List UInt8 → Option (List Column × List UInt8)
  | [], body => some ([], body)
  | type :: types, body =>
    if body.length < Column.size type then none
    else do
      let (columns, rest) ← takeColumns types (body.drop (Column.size type))
      some (.ofBytes type (body.take (Column.size type)) :: columns, rest)

/-- The first `count` columns of a record.  The lengths in the header have to add up, but a header
without any types says nothing of the body. -/
def columns? (count : Nat) (record : List UInt8) : Option (List Column) :=
  match varint record with
  | none => if record.isEmpty then some [] else none
  | some (headerSize, rest) =>
    let taken := record.length - rest.length
    if headerSize ≤ taken then some []
    else if record.length < headerSize then none
    else do
      let (types, whole) ← columnTypes count (rest.take (headerSize - taken))
      let (columns, after) ← takeColumns types (record.drop headerSize)
      if whole && !after.isEmpty then none else some columns

end Image

end SymbolAtlas
