import SymbolAtlas.Number.Bounds
import SymbolAtlas.Search.Words
import SymbolAtlas.Store.Read

/-!
Searching the symbols of a store through its search index.
-/

namespace SymbolAtlas

structure SymbolMatch where
  id : Int
  symbol : Symbol
  occurrenceCount : Nat
deriving DecidableEq

namespace SymbolMatch

/-- Matches are listed by qualified name and then by number. -/
def le (a b : SymbolMatch) : Bool :=
  textKeyLe a.symbol.qualifiedName b.symbol.qualifiedName [a.id] [b.id]

end SymbolMatch

/-- Limits from 2⁶³ on do not limit. -/
def takeLimit {α : Type} (limit : Nat) (list : List α) : List α :=
  if limit < int64Bound then list.take limit else list

namespace Store

def matching (s : Store) (run : Int) (terms : List String) : List SymbolMatch :=
  let wanted := phrases terms
  (s.searchIndex.filterMap fun e =>
    if matchesAny wanted [e.qualifiedName, e.identifier] then
      (s.symbols.get? e.symbol).map fun symbol =>
        ⟨e.symbol, symbol, s.occurrences.countP fun o => o.run == run && o.symbol == e.symbol⟩
    else none).mergeSort SymbolMatch.le

def search (s : Store) (run : Int) (terms : List String) (limit : Nat) : List SymbolMatch :=
  takeLimit limit (s.matching run terms)

end Store

end SymbolAtlas
