import SymbolAtlas.Store.Basic

/-!
Reading a store: rows by number, lists in a stated order, and counts.
-/

namespace SymbolAtlas

def keyLe : List Int → List Int → Bool
  | [], _ => true
  | _ :: _, [] => false
  | a :: as, b :: bs => decide (a < b) || (decide (a = b) && keyLe as bs)

def textKeyLe (s t : String) (a b : List Int) : Bool :=
  decide (s < t) || (decide (s = t) && keyLe a b)

structure MonikerDetails where
  id : Int
  moniker : Moniker
  symbol : Option Int
  package : Option (Int × Package)
deriving DecidableEq

structure RangeDetails where
  id : Int
  range : Range
deriving DecidableEq

structure OccurrenceDetails where
  symbol : Int
  role : Role
  location : Location
deriving DecidableEq

structure RunStats where
  documents : Nat
  ranges : Nat
  resultSets : Nat
  monikers : Nat
  hovers : Nat
  packages : Nat
  definitionItems : Nat
  referenceItems : Nat
  occurrences : Nat
deriving DecidableEq

namespace Span

/-- Coverage as a look-up tests it: the line lies within the lines of the span, and only on the
first and the last of them the character matters. -/
def covers (s : Span) (p : Position) : Bool :=
  decide (s.start.line ≤ p.line) && decide (p.line ≤ s.stop.line)
    && (decide (s.start.line < p.line) || decide (s.start.character ≤ p.character))
    && (decide (p.line < s.stop.line) || decide (p.character < s.stop.character))

end Span

namespace RangeDetails

/-- Smaller ranges come first: fewer lines, then fewer characters, then the lower number. -/
def key (r : RangeDetails) : List Int := [r.range.span.lineSpan, r.range.span.characterSpan, r.id]

end RangeDetails

namespace OccurrenceDetails

/-- Occurrences are listed by document and then by where they start.  The query asks for no more;
that ties are listed by where they end and then by role is a choice among the orders that it leaves
open. -/
def le (a b : OccurrenceDetails) : Bool :=
  let key := fun o : OccurrenceDetails =>
    let s := o.location.span
    [(s.start.line : Int), (s.start.character : Int), (s.stop.line : Int),
      (s.stop.character : Int)]
  decide (a.location.uri < b.location.uri)
    || (decide (a.location.uri = b.location.uri)
      && (!keyLe (key b) (key a)
        || (keyLe (key a) (key b) && decide (a.role.name ≤ b.role.name))))

end OccurrenceDetails

namespace Store

def runsNewestFirst (s : Store) : List (Int × Run) :=
  s.runs.rows.mergeSort fun a b => keyLe [b.2.createdAt, b.1] [a.2.createdAt, a.1]

def uris (s : Store) (run : Int) : List String :=
  (s.documents.rows.filterMap fun r => if r.2.run = run then some r.2.uri else none).mergeSort
    fun a b => decide (a ≤ b)

def monikerDetails? (s : Store) (id : Int) : Option MonikerDetails :=
  (s.monikers.get? id).map fun m =>
    { id := id, moniker := m, symbol := s.symbolOf? id
      package := m.package.bind fun p => (s.packages.get? p).map fun row => (p, row) }

def inDocument (s : Store) (run : Int) (uri : String) (r : Range) : Bool :=
  s.documents.holds r.document fun d => d.run == run && d.uri == uri

def covering (s : Store) (run : Int) (uri : String) (p : Position) : List RangeDetails :=
  s.ranges.rows.filterMap fun r =>
    if s.inDocument run uri r.2 && r.2.span.covers p then some ⟨r.1, r.2⟩ else none

/-- The smallest range that covers a position. -/
def innermost? (s : Store) (run : Int) (uri : String) (p : Position) : Option RangeDetails :=
  ((s.covering run uri p).mergeSort fun a b => keyLe a.key b.key).head?

def location? (s : Store) (document range : Int) : Option Location := do
  let d ← s.documents.get? document
  let r ← s.ranges.get? range
  return ⟨d.uri, r.span⟩

def definitionsIn (s : Store) (run bucket : Int) : List Location :=
  s.definitionItems.rows.filterMap fun r =>
    if r.2.run = run ∧ r.2.bucket = bucket then s.location? r.2.document r.2.range else none

def referencesIn (s : Store) (run bucket : Int) (includeDefinitions : Bool) :
    List Location :=
  s.referenceItems.rows.filterMap fun r =>
    if r.2.run = run ∧ r.2.bucket = bucket ∧ (includeDefinitions ∨ !r.2.isDefinition) then
      s.location? r.2.document r.2.range
    else none

def contentsOf (s : Store) (run bucket : Int) : List Location :=
  s.definitionsIn run bucket ++ s.referencesIn run bucket true

def occurrencesOf (s : Store) (run symbol : Int) (role : Option Role) :
    List OccurrenceDetails :=
  (s.occurrences.filterMap fun o =>
    if o.run = run ∧ o.symbol = symbol ∧ role.all (· == o.role) then
      (s.location? o.document o.range).map fun l => ⟨o.symbol, o.role, l⟩
    else none).mergeSort OccurrenceDetails.le

def occurrenceTotal (s : Store) (run : Int) : Nat := s.occurrences.countP fun o => o.run == run

def rangeTotal (s : Store) (document : Int) : Nat := s.ranges.count fun r => r.document == document

def stats (s : Store) (run : Int) : RunStats where
  documents := s.documents.count fun d => d.run == run
  ranges := s.ranges.count fun r => s.documents.holds r.document fun d => d.run == run
  resultSets := s.resultSets.count fun r => r.run == run
  monikers := s.monikers.count fun m => m.run == run
  hovers := s.hovers.count fun h => h.run == run
  packages := s.packages.count fun p => p.run == run
  definitionItems := s.definitionItems.count fun i => i.run == run
  referenceItems := s.referenceItems.count fun i => i.run == run
  occurrences := s.occurrenceTotal run

end Store

end SymbolAtlas
