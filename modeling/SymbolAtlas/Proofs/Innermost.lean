import Mathlib
import SymbolAtlas.Proofs.Navigation

namespace SymbolAtlas

/-- The place of a position in its text, by line and then by character. -/
def Position.place (p : Position) : ℕ ×ₗ ℕ := toLex (p.line, p.character)

namespace Span

variable {s : Span} {p : Position}

def positions (s : Span) : Set Position := {p | s.contains p = true}

theorem contains_iff : s.contains p = true ↔ s.start.place ≤ p.place ∧ p.place < s.stop.place := by
  simp only [contains, Position.before, Position.place, Prod.Lex.toLex_le_toLex,
    Prod.Lex.toLex_lt_toLex, Bool.and_eq_true, Bool.or_eq_true, Bool.not_eq_true',
    Bool.or_eq_false_iff, Bool.and_eq_false_iff, decide_eq_true_eq, decide_eq_false_iff_not]
  omega

theorem covers_iff : s.covers p = true ↔ s.start.place ≤ p.place ∧ p.place < s.stop.place := by
  rw [covers_eq_contains, contains_iff]

variable {a b : Span}

theorem positions_subset_iff (ha : a.contains p = true) (hb : b.contains p = true) :
    a.positions ⊆ b.positions ↔
      b.start.place ≤ a.start.place ∧ a.stop.place ≤ b.stop.place := by
  obtain ⟨has, hae⟩ := contains_iff.mp ha
  obtain ⟨-, hbe⟩ := contains_iff.mp hb
  constructor
  · intro h
    have hstart : a.contains a.start = true := contains_iff.mpr ⟨le_refl _, has.trans_lt hae⟩
    refine ⟨(contains_iff.mp (h hstart)).1, le_of_not_gt fun hlt => ?_⟩
    have hstop : a.contains b.stop = true := contains_iff.mpr ⟨has.trans hbe.le, hlt⟩
    exact lt_irrefl _ (contains_iff.mp (h hstop)).2
  · rintro ⟨hstart, hstop⟩ q hq
    obtain ⟨hqs, hqe⟩ := contains_iff.mp hq
    exact contains_iff.mpr ⟨hstart.trans hqs, hqe.trans_le hstop⟩

/-- Of two spans at one position the inner one has fewer lines or, between the same lines, fewer
characters. -/
theorem smaller_of_ssubset (ha : a.contains p = true) (hb : b.contains p = true)
    (h : a.positions ⊂ b.positions) : a.smaller b = true := by
  obtain ⟨hstart, hstop⟩ := (positions_subset_iff ha hb).mp h.subset
  have hne : ¬ (a.start.place ≤ b.start.place ∧ b.stop.place ≤ a.stop.place) := fun hback =>
    h.not_subset ((positions_subset_iff hb ha).mpr hback)
  simp only [Position.place, Prod.Lex.toLex_le_toLex] at hstart hstop hne
  simp only [smaller, Bool.or_eq_true, Bool.and_eq_true, decide_eq_true_eq]
  unfold lineSpan characterSpan
  omega

end Span

/-- A scan that keeps the first of the smallest elements finds what comes first in order. -/
theorem head?_mergeSort_eq_argmin {α β : Type} [LinearOrder β] {le : α → α → Bool} {f : α → β}
    (hle : ∀ a b, le a b = true ↔ f a ≤ f b) (list : List α) :
    (list.mergeSort le).head? = list.argmin f := by
  have trans : ∀ a b c, le a b = true → le b c = true → le a c = true := by
    intro a b c hab hbc
    exact (hle a c).mpr (((hle a b).mp hab).trans ((hle b c).mp hbc))
  have total : ∀ a b, (le a b || le b a) = true := by
    intro a b
    rw [Bool.or_eq_true, hle, hle]
    exact le_total (f a) (f b)
  induction list with
  | nil => simp
  | cons a rest ih =>
    -- The first element keeps its place against equals, and gives way to what is smaller.
    obtain ⟨before, after, hall, hrest, hbefore⟩ := List.mergeSort_cons trans total a rest
    rw [hall, List.argmin_cons, ← ih, hrest]
    cases before with
    | nil =>
      have hsorted := List.pairwise_mergeSort trans total (a :: rest)
      rw [hall, List.nil_append, List.pairwise_cons] at hsorted
      cases after with
      | nil => rfl
      | cons c after =>
        have hac : f a ≤ f c := (hle a c).mp (hsorted.1 c List.mem_cons_self)
        exact (if_neg (not_lt_of_ge hac)).symm
    | cons c before =>
      have hca : f c < f a := by
        have hn := hbefore c List.mem_cons_self
        rw [Bool.not_eq_true', Bool.eq_false_iff, ne_eq, hle] at hn
        exact lt_of_not_ge hn
      exact (if_pos hca).symm

namespace RangeDetails

/-- Lines count first, then characters, then the number. -/
def size (r : RangeDetails) : ℤ ×ₗ ℤ ×ₗ ℤ :=
  toLex (r.range.span.lineSpan, toLex (r.range.span.characterSpan, r.id))

theorem keyLe_iff_size (a b : RangeDetails) : keyLe a.key b.key = true ↔ a.size ≤ b.size := by
  simp only [key, keyLe, size, Prod.Lex.toLex_le_toLex, Bool.or_eq_true, Bool.and_eq_true,
    decide_eq_true_eq, and_true]
  omega

theorem size_lt_of_smaller {a b : RangeDetails} (h : a.range.span.smaller b.range.span = true) :
    a.size < b.size := by
  simp only [Span.smaller, Bool.or_eq_true, Bool.and_eq_true, decide_eq_true_eq] at h
  simp only [size, Prod.Lex.toLex_lt_toLex]
  omega

end RangeDetails

namespace Store

/-- A range of a document of the run that has the uri. -/
def HasRange (s : Store) (run : Int) (uri : String) (r : RangeDetails) : Prop :=
  (r.id, r.range) ∈ s.ranges.rows ∧
    ∃ d, s.documents.get? r.range.document = some d ∧ d.run = run ∧ d.uri = uri

/-- The ranges of all documents of the run that have the uri. -/
def rangesOf (s : Store) (run : Int) (uri : String) : List RangeDetails :=
  (s.ranges.rows.map fun r => (⟨r.1, r.2⟩ : RangeDetails)).filter fun r =>
    s.documents.holds r.range.document fun d => d.run == run && d.uri == uri

variable {s : Store} {run : Int} {uri : String} {p : Position} {r : RangeDetails}

theorem mem_rangesOf_iff : r ∈ s.rangesOf run uri ↔ s.HasRange run uri r := by
  simp only [rangesOf, HasRange, List.mem_filter, List.mem_map, Table.holds_iff, Bool.and_eq_true,
    beq_iff_eq]
  refine and_congr_left fun _ => ⟨?_, fun hr => ⟨_, hr, rfl⟩⟩
  rintro ⟨row, hrow, rfl⟩
  exact hrow

theorem covering_eq_filter (s : Store) (run : Int) (uri : String) (p : Position) :
    s.covering run uri p = (s.rangesOf run uri).filter fun r => r.range.span.contains p := by
  rw [covering_eq, rangesOf, List.filter_filter, List.filter_map]
  congr 2
  funext row
  exact Bool.and_comm _ _

theorem innermost?_eq_argmin (s : Store) (run : Int) (uri : String) (p : Position) :
    s.innermost? run uri p =
      ((s.rangesOf run uri).filter fun r => r.range.span.contains p).argmin RangeDetails.size := by
  rw [innermost?, covering_eq_filter]
  exact head?_mergeSort_eq_argmin RangeDetails.keyLe_iff_size _

theorem innermost?_eq_none_iff :
    s.innermost? run uri p = none ↔
      ∀ r, s.HasRange run uri r → r.range.span.contains p = false := by
  rw [innermost?_eq_argmin, List.argmin_eq_none, List.filter_eq_nil_iff]
  simp only [mem_rangesOf_iff, Bool.not_eq_true]

theorem innermost?_least (h : s.innermost? run uri p = some r) :
    s.HasRange run uri r ∧ r.range.span.contains p = true ∧
      ∀ other, s.HasRange run uri other → other.range.span.contains p = true →
        r.size ≤ other.size := by
  rw [innermost?_eq_argmin] at h
  obtain ⟨hr, hp⟩ := List.mem_filter.mp (List.argmin_mem h)
  refine ⟨mem_rangesOf_iff.mp hr, hp, fun other ho hc => ?_⟩
  exact List.le_of_mem_argmin (List.mem_filter.mpr ⟨mem_rangesOf_iff.mpr ho, hc⟩) h

end Store

/-- What is found at a position is what a scan of all ranges in the documents of the run and uri
finds: the least by lines, characters and number of those that contain the position, and nothing if
there is none.  That a span covers a position line by line means that the position lies between its
ends in the order of the text. -/
theorem innermost_is_least (s : Store) (run : Int) (uri : String) (p : Position) :
    s.innermost? run uri p =
      ((s.rangesOf run uri).filter fun r => r.range.span.contains p).argmin RangeDetails.size ∧
    (s.innermost? run uri p = none ↔
      ∀ r, s.HasRange run uri r → r.range.span.contains p = false) ∧
    (∀ r, s.innermost? run uri p = some r →
      s.HasRange run uri r ∧ r.range.span.contains p = true ∧
        ∀ other, s.HasRange run uri other → other.range.span.contains p = true →
          r.size ≤ other.size) ∧
    (∀ r, r ∈ s.rangesOf run uri ↔ s.HasRange run uri r) ∧
    ∀ span : Span, span.covers p = span.contains p ∧
      (span.covers p = true ↔ span.start.place ≤ p.place ∧ p.place < span.stop.place) :=
  ⟨s.innermost?_eq_argmin run uri p, Store.innermost?_eq_none_iff,
    fun _ => Store.innermost?_least, fun _ => Store.mem_rangesOf_iff,
    fun span => ⟨covers_eq_contains span p, Span.covers_iff⟩⟩

/-- Ranges one inside the other, in two documents with the same uri, the inner ones with fewer
characters than none; beside them an empty range, one that ends before it starts, and one of another
run. -/
def nestedStore : Store where
  runs := ⟨2, [(1, { repo := none, commit := none, createdAt := 0 }),
    (2, { repo := none, commit := none, createdAt := 0 })]⟩
  documents := ⟨3, [(1, ⟨1, "a", none⟩), (2, ⟨1, "a", none⟩), (3, ⟨2, "a", none⟩)]⟩
  ranges := ⟨6, [(1, ⟨1, .ofCoords 0 0 9 0, none⟩), (2, ⟨2, .ofCoords 1 8 2 2, none⟩),
    (3, ⟨1, .ofCoords 1 9 2 1, none⟩), (4, ⟨1, .ofCoords 1 9 1 9, none⟩),
    (5, ⟨1, .ofCoords 3 0 1 0, none⟩), (6, ⟨3, .ofCoords 1 9 1 10, none⟩)]⟩

def nestedRanges : List RangeDetails :=
  [⟨1, 1, .ofCoords 0 0 9 0, none⟩, ⟨2, 2, .ofCoords 1 8 2 2, none⟩,
    ⟨3, 1, .ofCoords 1 9 2 1, none⟩]

theorem nested_covering :
    ((nestedStore.rangesOf 1 "a").filter fun r => r.range.span.contains ⟨1, 9⟩) = nestedRanges := by
  decide +kernel

theorem nested_innermost :
    nestedStore.innermost? 1 "a" ⟨1, 9⟩ = some ⟨3, 1, .ofCoords 1 9 2 1, none⟩ := by
  rw [Store.innermost?_eq_argmin, nested_covering]
  decide +kernel

/-- The innermost of the ranges is the least, although it is in another document than the next. -/
theorem nested_is_least :
    nestedStore.innermost? 1 "a" ⟨1, 9⟩ = some ⟨3, 1, .ofCoords 1 9 2 1, none⟩ ∧
      (⟨3, 1, .ofCoords 1 9 2 1, none⟩ : RangeDetails).size ≤
        (⟨2, 2, .ofCoords 1 8 2 2, none⟩ : RangeDetails).size := by
  obtain ⟨-, -, hleast, hmem, -⟩ := innermost_is_least nestedStore 1 "a" ⟨1, 9⟩
  have hnext : (⟨2, 2, .ofCoords 1 8 2 2, none⟩ : RangeDetails) ∈ nestedStore.rangesOf 1 "a" := by
    decide +kernel
  exact ⟨nested_innermost, (hleast _ nested_innermost).2.2 _ ((hmem _).mp hnext) (by decide)⟩

/-- No range at a position lies properly inside the one that is found; and if any two of the ranges
there lie one inside the other, the one that is found lies inside all of them. -/
theorem innermost_has_none_inside {s : Store} {run : Int} {uri : String} {p : Position}
    {r : RangeDetails} (h : s.innermost? run uri p = some r) :
    (∀ other, s.HasRange run uri other → other.range.span.contains p = true →
      ¬ other.range.span.positions ⊂ r.range.span.positions) ∧
    (IsChain (· ⊆ ·) {set | ∃ other, s.HasRange run uri other ∧
        other.range.span.contains p = true ∧ other.range.span.positions = set} →
      ∀ other, s.HasRange run uri other → other.range.span.contains p = true →
        r.range.span.positions ⊆ other.range.span.positions) := by
  obtain ⟨hr, hp, hleast⟩ := Store.innermost?_least h
  have hnone : ∀ other, s.HasRange run uri other → other.range.span.contains p = true →
      ¬ other.range.span.positions ⊂ r.range.span.positions := by
    intro other ho hc hinside
    have hlt := RangeDetails.size_lt_of_smaller (Span.smaller_of_ssubset hc hp hinside)
    exact not_le_of_gt hlt (hleast other ho hc)
  refine ⟨hnone, fun hchain other ho hc => ?_⟩
  rcases hchain.total ⟨r, hr, hp, rfl⟩ ⟨other, ho, hc, rfl⟩ with hin | hout
  · exact hin
  · by_contra hn
    exact hnone other ho hc ⟨hout, hn⟩

/-- The innermost of the ranges lies inside the outermost. -/
theorem nested_inside :
    (Span.ofCoords 1 9 2 1).positions ⊆ (Span.ofCoords 0 0 9 0).positions := by
  have hall : ∀ r, nestedStore.HasRange 1 "a" r → r.range.span.contains ⟨1, 9⟩ = true →
      r ∈ nestedRanges := by
    intro r hr hc
    rw [← nested_covering]
    exact List.mem_filter.mpr ⟨Store.mem_rangesOf_iff.mpr hr, hc⟩
  have hends : ∀ a ∈ nestedRanges, ∀ b ∈ nestedRanges,
      b.range.span.start.place ≤ a.range.span.start.place ∧
          a.range.span.stop.place ≤ b.range.span.stop.place ∨
        a.range.span.start.place ≤ b.range.span.start.place ∧
          b.range.span.stop.place ≤ a.range.span.stop.place := by decide +kernel
  have houter : (⟨1, 1, .ofCoords 0 0 9 0, none⟩ : RangeDetails) ∈
      (nestedStore.rangesOf 1 "a").filter fun r => r.range.span.contains ⟨1, 9⟩ := by
    decide +kernel
  obtain ⟨hin, hc⟩ := List.mem_filter.mp houter
  refine (innermost_has_none_inside nested_innermost).2 ?_ _ (Store.mem_rangesOf_iff.mp hin) hc
  rintro _ ⟨a, ha, hac, rfl⟩ _ ⟨b, hb, hbc, rfl⟩ -
  exact (hends a (hall a ha hac) b (hall b hb hbc)).imp (Span.positions_subset_iff hac hbc).mpr
    (Span.positions_subset_iff hbc hac).mpr

end SymbolAtlas
