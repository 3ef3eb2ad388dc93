import SymbolAtlas.Image.Record

/-!
Trees of pages.  A leaf holds records, an inner page holds children, and a record that is too long
for its page goes on in a chain of other pages.
-/

namespace SymbolAtlas

namespace Image

def pageStart (image : Image) (page : Nat) : Nat := (page - 1) * image.pageSize

def treeStart (image : Image) (page : Nat) : Nat :=
  if page ≤ 1 then 100 else image.pageStart page

inductive TreeKind where
  | numbers
  | keys
deriving DecidableEq

/-- Whether a page of a tree is a leaf; none if it is no page of a tree of the given kind. -/
def isLeaf? (image : Image) (page : Nat) (kind : TreeKind := .numbers) : Option Bool :=
  match image.byte (image.treeStart page), kind with
  | 13, .numbers => some true
  | 5, .numbers => some false
  | 10, .keys => some true
  | 2, .keys => some false
  | _, _ => none

def cellCount (image : Image) (page : Nat) : Nat := image.word16 (image.treeStart page + 3)

def mostCells (image : Image) : Nat := (image.pageSize - 8) / 6

def cellList (image : Image) (page : Nat) (leaf : Bool) : Nat :=
  image.treeStart page + if leaf then 8 else 12

def cells (image : Image) (page : Nat) (leaf : Bool) : List Nat :=
  (List.range (image.cellCount page)).map fun k =>
    image.pageStart page + image.word16 (image.cellList page leaf + 2 * k) % image.pageSize

def lastChild (image : Image) (page : Nat) : Nat := image.word32 (image.treeStart page + 8)

inductive TreePage where
  | leaf (cells : List Nat)
  | inner (children : List Nat)

def treePage? (image : Image) (page : Nat) (kind : TreeKind) : Option TreePage :=
  if page = 0 || image.pageCount < page || image.mostCells < image.cellCount page then none
  else
    match image.isLeaf? page kind with
    | some true => some (.leaf (image.cells page true))
    | some false =>
      some (.inner ((image.cells page false).map image.word32 ++ [image.lastChild page]))
    | none => none

def mostLevels : Nat := 20

/-- The cells of all leaves below a page, in order, with none in the place of a page that cannot
be read.  Only the topmost page may have no cells. -/
def cellsBelow (image : Image) (kind : TreeKind) : (levels : Nat) → (page : Nat) →
    List (Option Nat)
  | 0, _ => [none]
  | levels + 1, page =>
    match image.treePage? page kind with
    | none => [none]
    | some (.leaf cells) => cells.map some
    | some (.inner children) => children.flatMap fun child =>
        if image.cellCount child = 0 then [none] else image.cellsBelow kind levels child

def lastPages (image : Image) : (levels : Nat) → (page : Nat) → List Nat
  | 0, _ => []
  | levels + 1, page =>
    if image.isLeaf? page = some false then page :: image.lastPages levels (image.lastChild page)
    else [page]

def mostLocal (image : Image) : Nat := image.usableSize - 35

/-- The least part of a payload that stays in its page. -/
def leastLocal (image : Image) : Nat := (image.usableSize - 12) * 32 / 255 - 23

def localSize (image : Image) (size : Nat) : Nat :=
  if size ≤ image.mostLocal then size
  else
    let n := image.leastLocal + (size - image.leastLocal) % (image.usableSize - 4)
    if n ≤ image.mostLocal then n else image.leastLocal

def chained (image : Image) : (fuel : Nat) → (page count : Nat) → Option (List UInt8)
  | _, _, 0 => some []
  | 0, _, _ => none
  | fuel + 1, page, count =>
    if page = 0 || image.pageCount < page then none
    else
      let start := image.pageStart page
      let here := min count (image.usableSize - 4)
      (image.chained fuel (image.word32 start) (count - here)).map
        (image.slice (start + 4) here ++ ·)

/-- The payload of the cell of a leaf: after its size and its key.  One that goes on in other
pages leaves the reserved end of its page alone. -/
def payload? (image : Image) (cell : Nat) : Option (List UInt8) := do
  let pageEnd := cell - cell % image.pageSize + image.pageSize
  let (size, rest) ← varint (image.slice cell (pageEnd - cell))
  let (_, rest) ← varint rest
  if image.pageSize * image.pageCount < size then none
  else
    let here := image.localSize size
    if rest.length < here then none
    else if here = size then some (rest.take size)
    else if rest.length - image.reserved < here then none
    else
      let next := image.word32 (pageEnd - rest.length + here)
      (image.chained size next (size - here)).map (rest.take here ++ ·)

def freeBlocks (image : Image) (start : Nat) : (fuel : Nat) → (place : Nat) → Option Nat
  | 0, _ => none
  | fuel + 1, place =>
    if image.usableSize < place + 4 then none
    else
      let next := image.word16 (start + place)
      let size := image.word16 (start + place + 2)
      if place + size + 3 < next then (image.freeBlocks start fuel next).map (size + ·)
      else if next = 0 && place + size ≤ image.usableSize then some size
      else none

def cellTop (image : Image) (page : Nat) : Nat :=
  let place := image.treeStart page + 5
  if image.word16 place = 0 then 65536 else image.word16 place

def cellListEnd (image : Image) (page : Nat) : Nat :=
  image.cellList page (image.isLeaf? page = some true) - image.pageStart page
    + 2 * image.cellCount page

def freeRoom? (image : Image) (page : Nat) : Option Nat :=
  let start := image.treeStart page
  let first := image.cellListEnd page
  let top := image.cellTop page
  let block := image.word16 (start + 1)
  let blocks :=
    if block = 0 then some 0
    else if block < top then none
    else image.freeBlocks (image.pageStart page) image.pageSize block
  match blocks with
  | none => none
  | some n =>
    let free := image.byte (start + 7) + top + n
    if first ≤ top && top ≤ image.usableSize && first ≤ free && free ≤ image.usableSize then
      some (free - first)
    else none

/-- Whether another cell can be put into a page: its account of its room holds, and no cell stands
in what it takes for free.  The last two cells of an inner page may be taken out, by the places as
they are listed. -/
def hasSoundRoom (image : Image) (page : Nat) : Bool :=
  let isLeaf := image.isLeaf? page = some true
  let listed := fun (k : Nat) => image.word16 (image.cellList page isLeaf + 2 * k)
  (image.freeRoom? page).isSome
    && (image.cells page isLeaf).all (fun cell => image.cellTop page ≤ cell - image.pageStart page)
    && (isLeaf || ((List.range (image.cellCount page)).drop (image.cellCount page - 2)).all
      fun k => listed k + 4 ≤ image.usableSize)

def cellSize (image : Image) (cell : Nat) : Nat :=
  let pageEnd := cell - cell % image.pageSize + image.pageSize
  let content := image.slice cell (pageEnd - cell)
  match (varint content).bind fun (size, rest) => (varint rest).map fun r => (size, r.2) with
  | none => 4
  | some (size, rest) =>
    let here := image.localSize size
    max 4 (content.length - rest.length + here + if here = size then 0 else 4)

def hasTrueRoom (image : Image) (page : Nat) : Bool :=
  let used := (image.cells page true).foldl (fun n cell => n + image.cellSize cell) 0
  image.freeRoom? page = some (image.usableSize - image.cellListEnd page - used)

def gap (image : Image) (page : Nat) : Nat := image.cellTop page - image.cellListEnd page

/-- Whether so many unused pages can be taken from a list of them.  A page of the list names the
next one and holds the numbers of further unused pages. -/
def canTake (image : Image) : (fuel : Nat) → (count page : Nat) → Bool
  | _, 0, _ => true
  | 0, _, _ => false
  | fuel + 1, count, page =>
    if page < 2 || image.pageCount < page then false
    else
      let start := image.pageStart page
      let held := image.word32 (start + 4)
      if image.usableSize / 4 - 2 < held then false
      else
        ((List.range held).take count).all (fun k =>
          let n := image.word32 (start + 8 + 4 * k)
          2 ≤ n && n ≤ image.pageCount)
        && image.canTake fuel (count - (held + 1)) (image.word32 start)

/-- Whether the image keeps account of the page that the last tree starts in.  Such an image has
maps, pages that say for each of the pages after them what it is for. -/
def isMapped (image : Image) : Bool := image.lastRoot ≠ 0

def mapLength (image : Image) : Nat := image.usableSize / 5

def mapOf (image : Image) (page : Nat) : Nat :=
  (page - 2) / (image.mapLength + 1) * (image.mapLength + 1) + 2

def isMap (image : Image) (page : Nat) : Bool := 2 ≤ page && image.mapOf page = page

def mapped (image : Image) (page : Nat) : Nat :=
  let map := image.mapOf page
  image.byte (image.pageStart map + 5 * (page - map - 1))

def mappedParent (image : Image) (page : Nat) : Nat :=
  let map := image.mapOf page
  image.word32 (image.pageStart map + 5 * (page - map - 1) + 1)

/-- Whether a page can move: it is part of a chain or of a tree, and what it hangs from knows
it. -/
def canMove (image : Image) (page : Nat) : Bool :=
  let parent := image.mappedParent page
  3 ≤ page && 1 ≤ parent && parent ≤ image.pageCount &&
    match image.mapped page with
    | 3 => true
    | 4 => image.word32 (image.pageStart parent) = page
    | 5 =>
      match image.treePage? parent .numbers, image.treePage? parent .keys with
      | some (.inner children), _ | _, some (.inner children) => children.contains page
      | _, _ => false
    | _ => false

/-- Whether the page where the next tree has to start can be cleared: it is new, or its contents
can move, or it is on the list of unused pages. -/
def canClear (image : Image) : Bool :=
  let next := if image.isMap (image.lastRoot + 1) then image.lastRoot + 2 else image.lastRoot + 1
  image.pageCount < next || image.canMove next
    || (image.mapped next = 2 && image.unusedCount ≠ 0)

def canAllocate (image : Image) : Bool :=
  let count := image.unusedCount
  count = 0 || (count < image.pageCount && image.canTake count count image.firstTrunk)

def canGrow (image : Image) : Bool :=
  image.canAllocate
    && (!image.isMapped || (image.lastRoot ≤ image.pageCount && image.canClear))

def keepsUnused (image : Image) : Bool := image.word32 64 ≠ 0

/-- Whether a change can be finished, after which the image has grown or not.  An image with maps
then has to give its unused pages back, and a map is never its last page. -/
def canFinish (image : Image) (hasGrown : Bool) : Bool :=
  !image.isMapped || image.keepsUnused
    || ((hasGrown || !image.isMap image.pageCount) && image.unusedCount = 0)

/-- Whether all rows of the tree that starts in a page can be read, as far as so many columns. -/
def isReadable (image : Image) (kind : TreeKind) (count page : Nat) : Bool :=
  !(image.isMapped && image.isMap page)
    && (image.cellsBelow kind mostLevels page).all fun cell =>
      match cell, kind with
      | none, _ => false
      | some _, .keys => true
      | some cell, .numbers => ((image.payload? cell).bind (columns? count)).isSome

end Image

end SymbolAtlas
