import SymbolAtlas.Store.Derivation

/-!
What came of an ingest that was committed.
-/

namespace SymbolAtlas

structure Report where
  run : Int
  lines : Nat := 0
  vertices : Nat := 0
  edges : Nat := 0
  malformedLines : Nat := 0
  ignoredRecords : Nat := 0
  danglingReferences : Nat := 0
  droppedRanges : Nat := 0
  derivation : Option DerivationCounts := none
  derivationError : Option StoreError := none
deriving DecidableEq

namespace Report

/-- Nothing was skipped, dropped or failed. -/
def isClean (r : Report) : Bool :=
  r.malformedLines == 0 && r.danglingReferences == 0 && r.droppedRanges == 0
    && r.derivationError.isNone

end Report

end SymbolAtlas
