/-!
The lines of a byte stream.  A newline ends a line; what follows the last newline is a line too,
unless it is empty or the stream breaks off there.
-/

namespace SymbolAtlas

structure ByteStream where
  content : List UInt8
  failure : Option String := none

/-- Cuts bytes after every newline, and takes the newlines off; what is left behind the last one
is given apart. -/
def cutLines : List UInt8 → List (List UInt8) × List UInt8
  | [] => ([], [])
  | b :: rest =>
    match cutLines rest with
    | (lines, tail) =>
      if b = 10 then ([] :: lines, tail)
      else
        match lines with
        | [] => ([], b :: tail)
        | line :: lines => ((b :: line) :: lines, tail)

namespace ByteStream

/-- The lines that can be read before the stream ends or fails. -/
def lines (s : ByteStream) : List (List UInt8) :=
  match cutLines s.content with
  | (lines, tail) => if tail.isEmpty || s.failure.isSome then lines else lines ++ [tail]

end ByteStream

def isBlankByte (b : UInt8) : Bool := b == 32 || b == 9 || b == 10 || b == 12 || b == 13

def trimLine (line : List UInt8) : List UInt8 :=
  ((line.dropWhile isBlankByte).reverse.dropWhile isBlankByte).reverse

end SymbolAtlas
