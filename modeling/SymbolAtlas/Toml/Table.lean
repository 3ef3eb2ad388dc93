import SymbolAtlas.Toml.Basic

/-!
The tables that the entries of a document make up.  A table is opened by at most one header, a
key is assigned at most once, and dotted keys only go on with tables that dotted keys made.
-/

namespace SymbolAtlas.Toml

/-- How a table came to be: as a step on the way of a header, by a dotted key, by its own
header, or as a value. -/
inductive Origin where
  | passed
  | dotted
  | header
  | value
deriving DecidableEq

inductive Node where
  | scalar (value : Scalar)
  | array (items : List Node)
  | table (origin : Origin) (members : List (String × Node))
  | tables (items : List (List (String × Node)))

abbrev Members := List (String × Node)

namespace Members

def get? (members : Members) (key : String) : Option Node := members.lookup key

def replace (members : Members) (key : String) (node : Node) : Members :=
  members.map fun m => if m.1 = key then (key, node) else m

def changeLast (change : Members → Option Members) : List Members → Option (List Members)
  | [] => none
  | [m] => (change m).map fun m => [m]
  | m :: rest => (changeLast change rest).map fun rest => m :: rest

/-- Assigns a value to a dotted key, given as the path to its last part and that part. -/
def assign (key : String) (node : Node) : Path → Members → Option Members
  | [], members =>
    match members.get? key with
    | some _ => none
    | none => some (members ++ [(key, node)])
  | step :: path, members =>
    match members.get? step with
    | none => (assign key node path []).map fun inner => members ++ [(step, .table .dotted inner)]
    | some (.table origin inner) =>
      if origin = .dotted ∨ (origin = .passed ∧ path ≠ []) then
        (assign key node path inner).map fun inner =>
          members.replace step (.table origin inner)
      else none
    | some (.tables items) =>
      if path = [] then none
      else
        (changeLast (assign key node path) items).map fun items =>
          members.replace step (.tables items)
    | some _ => none

/-- Changes what stands at the end of a header's path.  Tables on the way are made if they are
missing, and of a list of tables the last one is meant. -/
def atHeader (enter : String → Members → Option Members) : Path → Members → Option Members
  | [], _ => none
  | [key], members => enter key members
  | step :: path, members =>
    match members.get? step with
    | none => (atHeader enter path []).map fun inner => members ++ [(step, .table .passed inner)]
    | some (.table origin inner) =>
      if origin = .value then none
      else
        (atHeader enter path inner).map fun inner =>
          members.replace step (.table origin inner)
    | some (.tables items) =>
      (changeLast (atHeader enter path) items).map fun items =>
        members.replace step (.tables items)
    | some _ => none

/-- Opens a table: a new one, or one that headers have only passed so far. -/
def openTable (key : String) (members : Members) : Option Members :=
  match members.get? key with
  | none => some (members ++ [(key, .table .header [])])
  | some (.table .passed inner) => some (members.replace key (.table .header inner))
  | some _ => none

def openTables (key : String) (members : Members) : Option Members :=
  match members.get? key with
  | none => some (members ++ [(key, .tables [[]])])
  | some (.tables items) => some (members.replace key (.tables (items ++ [[]])))
  | some _ => none

def within (change : Members → Option Members) : Path → Members → Option Members
  | [], members => change members
  | step :: path, members =>
    match members.get? step with
    | some (.table origin inner) =>
      (within change path inner).map fun inner => members.replace step (.table origin inner)
    | some (.tables items) =>
      (changeLast (within change path) items).map fun items =>
        members.replace step (.tables items)
    | _ => none

def assignPath (path : Path) (node : Node) (members : Members) : Option Members :=
  match path.getLast? with
  | none => none
  | some key => members.assign key node path.dropLast

end Members

mutual

def Value.node? : Value → Option Node
  | .scalar v => some (.scalar v)
  | .array items => (itemNodes? items).map .array
  | .inline members => (memberNodes? members []).map fun m => .table .value m

def itemNodes? : List Value → Option (List Node)
  | [] => some []
  | v :: rest => do
    let node ← v.node?
    let nodes ← itemNodes? rest
    return node :: nodes

def memberNodes? : List (Path × Value) → Members → Option Members
  | [], done => some done
  | (path, v) :: rest, done => do
    let node ← v.node?
    memberNodes? rest (← done.assignPath path node)

end

structure Document where
  members : Members
  current : Path

namespace Document

def empty : Document := ⟨[], []⟩

/-- Takes one more entry. -/
def add? (doc : Document) : Entry → Option Document
  | .header path =>
    (doc.members.atHeader Members.openTable path).map fun m => ⟨m, path⟩
  | .arrayHeader path =>
    (doc.members.atHeader Members.openTables path).map fun m => ⟨m, path⟩
  | .assign path value => do
    let node ← value.node?
    let members ← doc.members.within (Members.assignPath path node) doc.current
    return { doc with members := members }

def ofEntries? (entries : List Entry) : Option Members :=
  (entries.foldlM add? empty).map Document.members

end Document

end SymbolAtlas.Toml
