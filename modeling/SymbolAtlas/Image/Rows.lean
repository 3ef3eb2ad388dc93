import SymbolAtlas.Image.Tree
import SymbolAtlas.Number.Binary64
import SymbolAtlas.Number.Bounds
import SymbolAtlas.Sql.Value

/-!
The rows of tables in an image.
-/

namespace SymbolAtlas

namespace Image

def realValue? (bits : Nat) : Option Sql.Value :=
  let fraction := bits % Binary64.minMantissa
  let exponent := bits / Binary64.minMantissa % 2048
  let mantissa := if exponent = 0 then fraction else fraction + Binary64.minMantissa
  let power : Int := max exponent 1 - 1075
  let signed := fun (n : Nat) => if bits < int64Bound then (n : Int) else -(n : Int)
  if exponent = 2047 then (if fraction = 0 then none else some .null)
  else if 0 ≤ power then some (.real (signed (mantissa * Nat.pow 2 power.toNat)) 0)
  else some (.real (signed (mantissa * Nat.pow 5 (-power).toNat)) (-power).toNat)

def value? (image : Image) (c : Column) : Option Sql.Value :=
  match c with
  | .null => some .null
  | .integer n => some (.integer n)
  | .real bits => realValue? bits
  | .text _ => (c.text? image.encoding).map .text
  | .blob content => some (.blob content)

def keyPayload? (image : Image) (cell : Nat) : Option (List UInt8) := do
  let pageEnd := cell - cell % image.pageSize + image.pageSize
  let (size, rest) ← varint (image.slice cell (pageEnd - cell))
  if rest.length < size || (image.usableSize - 12) * 64 / 255 - 23 < size then none
  else some (rest.take size)

/-- The columns of a table that are stored, in the order in which its tree has them. -/
def storedColumns (t : Sql.TableDef) : List String :=
  let names := (t.columns.filter (·.isStored)).map (·.name)
  match (if t.isClustered then t.keys.find? (·.isPrimary) else none) with
  | none => names
  | some k =>
    let first := k.columns.map (·.1)
    first ++ names.filter fun n => !first.contains n

def rowNumber? (image : Image) (cell : Nat) : Option Int := do
  let pageEnd := cell - cell % image.pageSize + image.pageSize
  let (_, rest) ← varint (image.slice cell (pageEnd - cell))
  let (n, _) ← varint rest
  some (if n < int64Bound then (n : Int) else (n : Int) - word64Bound)

/-- The rows of a table whose tree starts in the given page, as far as they can be told.  A column
that is the number of the row is not kept a second time, and one that is not stored is computed. -/
def rows (image : Image) (t : Sql.TableDef) (root : Nat) : List Sql.Row :=
  let names := storedColumns t
  let payload? := if t.isClustered then image.keyPayload? else image.payload?
  let kind := if t.isClustered then TreeKind.keys else .numbers
  (image.cellsBelow kind mostLevels root).filterMap fun cell => do
    let cell ← cell
    let columns ← (payload? cell).bind (columns? names.length)
    let number := if t.isClustered then none else image.rowNumber? cell
    let stored := (names.zip columns).filterMap fun (n, c) =>
      (if t.rowNumber = some n then number.map .integer else image.value? c).map fun v => (n, v)
    let computed := (t.columns.filter (!·.isStored)).filterMap fun c =>
      (c.generated.bind fun e => e.eval? t stored).map fun v =>
        (c.name, v.within (.ofType c.type))
    return ⟨number, stored ++ computed⟩

end Image

end SymbolAtlas
