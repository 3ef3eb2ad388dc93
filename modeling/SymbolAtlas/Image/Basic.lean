import SymbolAtlas.Error
import SymbolAtlas.Number.Bounds

/-!
The image of a database: the bytes of its file, cut into pages of one size, the first of which
begins with a header of one hundred bytes.
-/

namespace SymbolAtlas

/-- The bytes of a database file; beyond their end all bytes are zero. -/
structure Image where
  bytes : Array UInt8

namespace Image

def ofBytes (content : List UInt8) : Image := ⟨content.toArray⟩

def byteAt (image : Image) (place : Nat) : UInt8 := (image.bytes[place]?).getD 0

def byte (image : Image) (place : Nat) : Nat := (image.byteAt place).toNat

def word16 (image : Image) (place : Nat) : Nat := image.byte place * 256 + image.byte (place + 1)

def word32 (image : Image) (place : Nat) : Nat :=
  image.word16 place * 65536 + image.word16 (place + 2)

def slice (image : Image) (place count : Nat) : List UInt8 :=
  (List.range count).map fun k => image.byteAt (place + k)

def signature : List UInt8 := "SQLite format 3".toUTF8.toList ++ [0]

def pageSize (image : Image) : Nat := image.byte 16 * 256 + image.byte 17 * 65536

/-- Images that ask for more of a writer than `2` can only be read. -/
def writerLevel (image : Image) : Nat := image.byte 18

/-- Images that ask for more of a reader than `2` cannot even be read; at `2` changes go to a log
beside the file. -/
def readerLevel (image : Image) : Nat := image.byte 19

def reserved (image : Image) : Nat := image.byte 20

def usableSize (image : Image) : Nat := image.pageSize - image.reserved

def fractions (image : Image) : List UInt8 := image.slice 21 3

def filePages (image : Image) : Nat :=
  (image.bytes.size + image.pageSize - 1) / image.pageSize

/-- The number of pages.  The header says it, unless its note is zero or older than the last
change. -/
def pageCount (image : Image) : Nat :=
  if image.word32 28 == 0 || image.word32 24 != image.word32 92 then image.filePages
  else image.word32 28

def firstTrunk (image : Image) : Nat := image.word32 32

def unusedCount (image : Image) : Nat := image.word32 36

def schemaFormat (image : Image) : Nat := image.byte 47

/-- The last page that a tree starts in, if the image keeps account of that. -/
def lastRoot (image : Image) : Nat := image.word32 52

def version (image : Image) : Int :=
  let n := image.word32 60
  if n < int32Bound then n else (n : Int) - word32Bound

inductive Encoding where
  | utf8
  | utf16 (bigEndian : Bool)
deriving DecidableEq

def encoding (image : Image) : Encoding :=
  match image.byte 59 % 4 with
  | 2 => .utf16 false
  | 3 => .utf16 true
  | _ => .utf8

def pageSizes : List Nat := [512, 1024, 2048, 4096, 8192, 16384, 32768, 65536]

def leastUsable : Nat := 480

def latestFormat : Nat := 4

/-- The first thing that is wrong with the header. -/
def headerFailure? (image : Image) : Option EngineFailure :=
  if image.slice 0 16 ≠ signature || 2 < image.readerLevel
      || image.fractions ≠ [64, 32, 32] || !pageSizes.contains image.pageSize then
    some .notADatabase
  else if image.filePages < image.pageCount then some .malformedImage
  else if image.usableSize < leastUsable then some .notADatabase
  else if latestFormat < image.schemaFormat then some .unsupportedFormat
  else none

end Image

end SymbolAtlas
