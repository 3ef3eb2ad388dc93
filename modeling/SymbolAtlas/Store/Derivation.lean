import SymbolAtlas.Store.Action

/-!
Occurrences are derived from the items of a run: an item leads to the result sets that point at
its bucket, and through their monikers to symbols.
-/

namespace SymbolAtlas

structure DerivationCounts where
  definitions : Nat
  references : Nat
  implementations : Nat
  types : Nat
deriving DecidableEq

def DerivationCounts.total (s : DerivationCounts) : Nat :=
  s.definitions + s.references + s.implementations + s.types

/-- The passes in their order. -/
inductive Pass where
  | definitions
  | references
  | implementations
  | types
deriving DecidableEq

namespace Pass

def bucketKind : Pass → BucketKind
  | definitions => .definitions
  | references => .references
  | implementations => .implementation
  | types => .typeDefinition

def referenceRole (pass : Pass) (isDefinition : Bool) : Role :=
  match pass with
  | definitions => .definition
  | references => if isDefinition then .definition else .reference
  | implementations => .implementation
  | types => .type

end Pass

namespace Store

/-- The items that a pass looks at, with the roles that they give: the definitions in the first
pass and the references in all others. -/
def passItems (s : Store) (pass : Pass) : List (Item × Role) :=
  match pass with
  | .definitions => s.definitionItems.rows.map fun r => (r.2, .definition)
  | pass => s.referenceItems.rows.map fun r => (r.2.toItem, pass.referenceRole r.2.isDefinition)

def symbolsOfItem (s : Store) (kind : BucketKind) (item : Item) : List Int :=
  s.resultSets.rows.filterMap fun r =>
    if r.2.run = item.run ∧ r.2.bucket? kind = some item.bucket then
      r.2.moniker.bind s.symbolOf?
    else none

/-- The occurrences that a pass finds in a run, possibly several times.  They come item by item, in
the order in which the rows of the items are numbered.  The query of a pass leaves the order of its
rows open, so this is a choice: where one pass can give a place two roles, another order may give it
the other one. -/
def found (s : Store) (run : Int) (pass : Pass) : List Occurrence :=
  (s.passItems pass).flatMap fun p =>
    if p.1.run = run then
      (s.symbolsOfItem pass.bucketKind p.1).map fun symbol =>
        ⟨p.1.run, symbol, p.1.document, p.1.range, p.2⟩
    else []

end Store

/-- Adds an occurrence unless its place is taken. -/
def addOccurrence (there : List Occurrence) (o : Occurrence) : List Occurrence :=
  if there.any o.samePlace then there else there ++ [o]

def derivePass (run : Int) (pass : Pass) : StoreAction Nat := statement fun access store => do
  let found := store.found run pass
  if !found.isEmpty then access.permit store [(.occurrences, .insert)]
  let occurrences := found.foldl addOccurrence store.occurrences
  return (occurrences.length - store.occurrences.length,
    { store with occurrences := occurrences })

def fillOccurrences (run : Int) : StoreAction DerivationCounts := do
  let definitions ← derivePass run .definitions
  let references ← derivePass run .references
  let implementations ← derivePass run .implementations
  let types ← derivePass run .types
  return ⟨definitions, references, implementations, types⟩

def clearOccurrences (run : Int) : StoreAction Unit := statement fun access store => do
  if store.occurrences.any fun o => o.run == run then
    access.permit store [(.occurrences, .delete)]
  return ((), { store with occurrences := store.occurrences.filter fun o => o.run != run })

def refillOccurrences (run : Int) : StoreAction DerivationCounts := do
  clearOccurrences run
  fillOccurrences run

end SymbolAtlas
