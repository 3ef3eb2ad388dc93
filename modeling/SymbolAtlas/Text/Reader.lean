/-!
Readers: functions that take a value off the front of a text and hand back the rest.
-/

namespace SymbolAtlas

/-- A reader takes a value off the front of a text and hands back the rest. -/
abbrev Reader (α : Type) := List Char → Option (α × List Char)

def digitValue? (base : Nat) (c : Char) : Option Nat :=
  let n := c.toNat
  let v := if 48 ≤ n ∧ n ≤ 57 then n - 48
    else if 97 ≤ n ∧ n ≤ 102 then n - 87
    else if 65 ≤ n ∧ n ≤ 70 then n - 55
    else 16
  if v < base then some v else none

def isDigit (c : Char) : Bool := (digitValue? 10 c).isSome

def digitsValue (base acc : Nat) (cs : List Char) : Nat :=
  cs.foldl (fun n c => n * base + (digitValue? base c).getD 0) acc

def readDigits : Reader (List Char) := fun cs =>
  match cs.takeWhile isDigit with
  | [] => none
  | ds => some (ds, cs.dropWhile isDigit)

/-- Joins the pieces that `step` reads until it reads the end; at most `fuel` of them. -/
def readPieces (step : Reader (Option (List Char))) : Nat → Reader (List Char)
  | 0, _ => none
  | fuel + 1, cs => do
    match ← step cs with
    | (none, r) => some ([], r)
    | (some piece, r) =>
      let (rest, r) ← readPieces step fuel r
      some (piece ++ rest, r)

end SymbolAtlas
