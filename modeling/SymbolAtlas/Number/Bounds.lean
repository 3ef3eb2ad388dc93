/-!
Where fixed-width numbers end.
-/

namespace SymbolAtlas

/-- One above the largest signed number of 32 bits, and the least one without its sign. -/
def int32Bound : Nat := 2147483648

def word32Bound : Nat := 4294967296

def word64Bound : Nat := 18446744073709551616

def int64Bound : Nat := 9223372036854775808

end SymbolAtlas
