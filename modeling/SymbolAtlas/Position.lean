/-!
Positions, half-open spans and locations in source text.  Lines and characters are counted
from zero, positions are ordered by line and then by character, and a span holds its start but
not its end.
-/

namespace SymbolAtlas

structure Position where
  line : Nat
  character : Nat
deriving DecidableEq

namespace Position

/-- Lines are compared first, characters only on equal lines. -/
def before (p q : Position) : Bool :=
  decide (p.line < q.line) || (decide (p.line = q.line) && decide (p.character < q.character))

def order (p q : Position) : Ordering :=
  if p.before q then .lt else if q.before p then .gt else .eq

end Position

/-- A stretch of text from `start` up to but excluding `stop`. -/
structure Span where
  start : Position
  stop : Position
deriving DecidableEq

namespace Span

/-- A span covers a position that is not before its start and is before its end. -/
def contains (s : Span) (p : Position) : Bool :=
  !p.before s.start && p.before s.stop

def lineSpan (s : Span) : Int := (s.stop.line : Int) - s.start.line

/-- Signed distance in characters, whatever the lines are. -/
def characterSpan (s : Span) : Int := (s.stop.character : Int) - s.start.character

def ofCoords (startLine startCharacter stopLine stopCharacter : Nat) : Span :=
  ⟨⟨startLine, startCharacter⟩, ⟨stopLine, stopCharacter⟩⟩

end Span

structure Location where
  uri : String
  span : Span
deriving DecidableEq

end SymbolAtlas
