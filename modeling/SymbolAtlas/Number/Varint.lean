/-!
Numbers of as many bytes as they need.
-/

namespace SymbolAtlas

/-- Seven bits from each byte as long as the top bit is set, and eight from a ninth byte. -/
def readVarint : (more : Nat) → (value : Nat) → List UInt8 → Option (Nat × List UInt8)
  | _, _, [] => none
  | 0, value, b :: r => some (value * 256 + b.toNat, r)
  | more + 1, value, b :: r =>
    if b.toNat < 128 then some (value * 128 + b.toNat, r)
    else readVarint more (value * 128 + (b.toNat - 128)) r

def varint (bytes : List UInt8) : Option (Nat × List UInt8) := readVarint 8 0 bytes

end SymbolAtlas
