import SymbolAtlas.Number.Binary64

/-!
The shortest decimal that reads back as a given binary number, and its layout as text.
-/

namespace SymbolAtlas

structure Decimal where
  digits : Nat
  exponent : Int
deriving DecidableEq

namespace Binary64

/-- The number with its two rounding bounds, as numerators over one power of two. -/
structure Bounds where
  low : Nat
  mid : Nat
  high : Nat
  scale : Int
  closed : Bool

/-- The reals that round to `x` lie between `low` and `high`; the ends belong to it exactly if
the mantissa is even.  Below a power of two the gap is half as wide. -/
def bounds (x : Binary64) : Bounds where
  low := if x.mantissa = minMantissa ∧ minExponent < x.exponent then 4 * x.mantissa - 1
    else 4 * x.mantissa - 2
  mid := 4 * x.mantissa
  high := 4 * x.mantissa + 2
  scale := x.exponent - 2
  closed := x.mantissa % 2 == 0

def shiftTen (n : Nat) (e : Int) : Nat := n * Nat.pow 10 e.toNat

def leadingDigit (n d : Nat) : Int :=
  let guess : Int := (((n.log2 : Int) - d.log2) * 30103).fdiv 100000
  let reaches := fun (p : Int) => decide (shiftTen d p ≤ shiftTen n (-p))
  if reaches (guess + 1) then guess + 1 else if reaches guess then guess else guess - 1

def candidate? (b : Bounds) (lead : Int) (count : Nat) : Option Decimal :=
  let unit := lead - count + 1
  let den := shiftTen (shift 1 (-b.scale)) unit
  let numerator := fun n => shiftTen (shift n b.scale) (-unit)
  let mid := numerator b.mid
  let inside := fun (c : Nat) =>
    if b.closed then decide (numerator b.low ≤ c * den) && decide (c * den ≤ numerator b.high)
    else decide (numerator b.low < c * den) && decide (c * den < numerator b.high)
  let below := mid / den
  let above := below + 1
  if mid % den = 0 then some ⟨below, unit⟩
  else if inside below && inside above then
    let down := mid - below * den
    let up := above * den - mid
    if down < up || (down == up && below % 2 == 0) then some ⟨below, unit⟩
    else some ⟨above, unit⟩
  else if inside below then some ⟨below, unit⟩
  else if inside above then some ⟨above, unit⟩
  else none

def trimZeros : Nat → Decimal → Decimal
  | 0, d => d
  | fuel + 1, d =>
    if d.digits % 10 = 0 then trimZeros fuel ⟨d.digits / 10, d.exponent + 1⟩ else d

/-- The decimal with the fewest digits that reads back as `x`, which must not be zero; of two
such decimals the nearer one. -/
def shortest (x : Binary64) : Decimal :=
  let b := x.bounds
  let lead := leadingDigit (shift b.mid b.scale) (shift 1 (-b.scale))
  let found := (List.range 17).findSome? fun n => candidate? b lead (n + 1)
  trimZeros 17 (found.getD ⟨0, 0⟩)

end Binary64

/-- How a real number is laid out: positionally when its leading digit's exponent is at least
`positionalFrom` and below `positionalBelow`, and with a signed exponent otherwise. -/
structure RealFormat where
  positionalFrom : Int
  positionalBelow : Int

namespace RealFormat

def zeros (n : Nat) : List Char := List.replicate n '0'

def sign (negative : Bool) : List Char := if negative then ['-'] else []

def natDigits (n : Nat) : List Char := Nat.toDigits 10 n

def positional (digits : List Char) (lead : Int) : List Char :=
  if lead < 0 then
    ['0', '.'] ++ zeros ((-lead).toNat - 1) ++ digits
  else
    let whole := lead.toNat + 1
    if digits.length ≤ whole then digits ++ zeros (whole - digits.length) ++ ['.', '0']
    else digits.take whole ++ ['.'] ++ digits.drop whole

def scientific (digits : List Char) (lead : Int) : List Char :=
  let fraction := if digits.length ≤ 1 then [] else '.' :: digits.drop 1
  let mark := if lead < 0 then ['e', '-'] else ['e', '+']
  digits.take 1 ++ fraction ++ mark ++ natDigits lead.natAbs

def chars (format : RealFormat) (negative : Bool) (x : Binary64) : List Char :=
  if x.mantissa = 0 then
    sign negative ++ ['0', '.', '0']
  else
    let d := x.shortest
    let digits := natDigits d.digits
    let lead := d.exponent + digits.length - 1
    let body := if format.positionalFrom ≤ lead ∧ lead < format.positionalBelow
      then positional digits lead else scientific digits lead
    sign negative ++ body

end RealFormat

end SymbolAtlas
