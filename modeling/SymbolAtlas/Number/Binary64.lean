/-!
Nonnegative finite binary floating-point numbers with 53 bits of precision, as exact pairs of a
mantissa and a power of two; every operation rounds a tie to the even mantissa.
-/

namespace SymbolAtlas

/-- The number `mantissa * 2 ^ exponent`. -/
structure Binary64 where
  mantissa : Nat
  exponent : Int
deriving DecidableEq

namespace Binary64

def minExponent : Int := -1074

def maxExponent : Int := 971

def minMantissa : Nat := 4503599627370496

def zero : Binary64 := ⟨0, minExponent⟩

/-- `n` times two to the `e`, where a negative `e` counts as zero. -/
def shift (n : Nat) (e : Int) : Nat := n * Nat.pow 2 e.toNat

/-- The quotient rounded to the nearest natural number, a half to the even neighbour. -/
def roundDiv (n d : Nat) : Nat :=
  let q := n / d
  let r := n % d
  if d < 2 * r || (d == 2 * r && q % 2 == 1) then q + 1 else q

def leadingBit (n d : Nat) : Int :=
  let k : Int := (n.log2 : Int) - d.log2
  if shift d k ≤ shift n (-k) then k else k - 1

def bounded (x : Binary64) : Option Binary64 :=
  if x.exponent ≤ maxExponent then some x else none

def nearest? (n d : Nat) : Option Binary64 :=
  if n = 0 then
    some zero
  else
    let e := max (leadingBit n d - 52) minExponent
    let q := roundDiv (shift n (-e)) (shift d e)
    if q = 2 * minMantissa then bounded ⟨minMantissa, e + 1⟩ else bounded ⟨q, e⟩

def mul? (x y : Binary64) : Option Binary64 :=
  let e := x.exponent + y.exponent
  nearest? (shift (x.mantissa * y.mantissa) e) (shift 1 (-e))

def div? (x y : Binary64) : Option Binary64 :=
  let e := x.exponent - y.exponent
  nearest? (shift x.mantissa e) (shift y.mantissa (-e))

def powTen (k : Nat) : Binary64 := (nearest? (Nat.pow 10 k) 1).getD zero

/-- Multiplies by a power of ten in steps of at most 308 decimal places, rounding after each
step.  None means that the result is too large. -/
def scaleByTen? (x : Binary64) (e : Int) : Option Binary64 :=
  if 0 ≤ e then
    if e ≤ 308 then x.mul? (powTen e.toNat)
    else if x.mantissa = 0 then some x else none
  else if -308 ≤ e then
    x.div? (powTen (-e).toNat)
  else if x.mantissa = 0 then
    some x
  else
    match x.div? (powTen 308) with
    | none => none
    | some y => scaleByTen? y (e + 308)
termination_by (-e).toNat
decreasing_by omega

/-- Reads `significand * 10 ^ e`: the significand is rounded first and scaled afterwards. -/
def ofDecimal? (significand : Nat) (e : Int) : Option Binary64 :=
  match nearest? significand 1 with
  | none => none
  | some x => x.scaleByTen? e

end Binary64

end SymbolAtlas
