import Mathlib.Algebra.BigOperators.Group.Finset.Basic
import Mathlib.Algebra.GroupWithZero.Nat
import Mathlib.Data.String.Basic
import SymbolAtlas.Proofs.Catalog
import SymbolAtlas.Proofs.Navigation

namespace SymbolAtlas

/-- Whether a pair of keys is in order: the first key decides unless it is the same. -/
def orderedBy {α : Type} (first second : α → α → Bool) (a b : α) : Bool :=
  !first b a || (first a b && second a b)

section OrderedBy

variable {α : Type} {first second : α → α → Bool}

theorem orderedBy_total (h₁ : ∀ a b, (first a b || first b a) = true)
    (h₂ : ∀ a b, (second a b || second b a) = true) (a b : α) :
    (orderedBy first second a b || orderedBy first second b a) = true := by
  have ht₁ := h₁ a b
  have ht₂ := h₂ a b
  unfold orderedBy
  cases hab : first a b <;> cases hba : first b a <;> simp_all

theorem orderedBy_trans
    (h₁ : ∀ a b c, first a b = true → first b c = true → first a c = true)
    (ht : ∀ a b, (first a b || first b a) = true)
    (h₂ : ∀ a b c, second a b = true → second b c = true → second a c = true) (a b c : α)
    (hab : orderedBy first second a b = true) (hbc : orderedBy first second b c = true) :
    orderedBy first second a c = true := by
  have le_of : ∀ {x y}, orderedBy first second x y = true → first x y = true := by
    intro x y hxy
    have htxy := ht x y
    unfold orderedBy at hxy
    cases hf : first x y <;> simp_all
  have hac : first a c = true := h₁ a b c (le_of hab) (le_of hbc)
  cases hca : first c a with
  | false => simp [orderedBy, hca]
  | true =>
    -- The first keys of all three are the same, so the second ones decide.
    have hba : first b a = true := h₁ b c a (le_of hbc) hca
    have hcb : first c b = true := h₁ c a b hca (le_of hab)
    simp only [orderedBy, hba, hcb, Bool.not_true, Bool.false_or, Bool.and_eq_true] at hab hbc
    simp [orderedBy, hac, h₂ a b c hab.2 hbc.2]

end OrderedBy

namespace OccurrenceDetails

def uriLe (a b : OccurrenceDetails) : Bool := decide (a.location.uri ≤ b.location.uri)

def spanKey (o : OccurrenceDetails) : List Int :=
  [(o.location.span.start.line : Int), (o.location.span.start.character : Int),
    (o.location.span.stop.line : Int), (o.location.span.stop.character : Int)]

def spanLe (a b : OccurrenceDetails) : Bool := keyLe a.spanKey b.spanKey

def roleLe (a b : OccurrenceDetails) : Bool := decide (a.role.name ≤ b.role.name)

theorem uriLe_total (a b : OccurrenceDetails) : (uriLe a b || uriLe b a) = true := by
  simpa [uriLe] using String.le_total a.location.uri b.location.uri

theorem uriLe_trans (a b c : OccurrenceDetails) (hab : uriLe a b = true)
    (hbc : uriLe b c = true) : uriLe a c = true := by
  simp only [uriLe, decide_eq_true_eq] at hab hbc ⊢
  exact String.le_trans hab hbc

theorem spanLe_total (a b : OccurrenceDetails) : (spanLe a b || spanLe b a) = true :=
  keyLe_total a.spanKey b.spanKey

theorem spanLe_trans (a b c : OccurrenceDetails) : spanLe a b = true → spanLe b c = true →
    spanLe a c = true :=
  keyLe_trans a.spanKey b.spanKey c.spanKey

theorem roleLe_total (a b : OccurrenceDetails) : (roleLe a b || roleLe b a) = true := by
  simpa [roleLe] using String.le_total a.role.name b.role.name

theorem roleLe_trans (a b c : OccurrenceDetails) (hab : roleLe a b = true)
    (hbc : roleLe b c = true) : roleLe a c = true := by
  simp only [roleLe, decide_eq_true_eq] at hab hbc ⊢
  exact String.le_trans hab hbc

theorem le_eq (a b : OccurrenceDetails) :
    le a b = orderedBy uriLe (orderedBy spanLe roleLe) a b := by
  have hlt : decide (a.location.uri < b.location.uri) = !uriLe b a := by
    rw [uriLe, ← decide_not, decide_eq_decide, String.not_le]
  unfold le orderedBy
  rw [hlt]
  rcases lt_trichotomy a.location.uri b.location.uri with h | h | h
  · have hn : ¬ b.location.uri ≤ a.location.uri := not_le_of_gt h
    simp [uriLe, hn]
  · simp [uriLe, h, spanLe, spanKey, roleLe]
  · have hn : ¬ a.location.uri ≤ b.location.uri := not_le_of_gt h
    simp [uriLe, hn, h.ne', le_of_lt h]

theorem le_total (a b : OccurrenceDetails) : (le a b || le b a) = true := by
  rw [le_eq, le_eq]
  exact orderedBy_total uriLe_total (orderedBy_total spanLe_total roleLe_total) a b

theorem le_trans (a b c : OccurrenceDetails) (hab : le a b = true) (hbc : le b c = true) :
    le a c = true := by
  rw [le_eq] at hab hbc ⊢
  have inner := orderedBy_trans spanLe_trans spanLe_total roleLe_trans
  exact orderedBy_trans uriLe_trans uriLe_total inner a b c hab hbc

theorem starts_of_le {a b : OccurrenceDetails} (h : le a b = true) :
    a.location.uri < b.location.uri ∨ a.location.uri = b.location.uri ∧
      (a.location.span.start.line < b.location.span.start.line ∨
        a.location.span.start.line = b.location.span.start.line ∧
          a.location.span.start.character ≤ b.location.span.start.character) := by
  simp only [le, keyLe, Bool.or_eq_true, Bool.and_eq_true, Bool.not_eq_true',
    Bool.or_eq_false_iff, Bool.and_eq_false_iff, decide_eq_true_eq, decide_eq_false_iff_not,
    and_true] at h
  rcases h with h | ⟨hu, h⟩
  · exact .inl h
  · exact .inr ⟨hu, by omega⟩

end OccurrenceDetails

namespace Store

variable {s : Store} {run symbol : Int}

theorem occurrencesOf_sorted (s : Store) (run symbol : Int) (role : Option Role) :
    (s.occurrencesOf run symbol role).Pairwise fun a b => OccurrenceDetails.le a b = true :=
  List.pairwise_mergeSort OccurrenceDetails.le_trans OccurrenceDetails.le_total _

/-- The occurrences of a symbol in a run as they stand in the store, with their places. -/
def occurrencesShown (s : Store) (run symbol : Int) : List OccurrenceDetails :=
  s.occurrences.filterMap fun o =>
    if o.run = run ∧ o.symbol = symbol then
      (s.location? o.document o.range).map fun l => ⟨o.symbol, o.role, l⟩
    else none

theorem occurrencesOf_all_perm (s : Store) (run symbol : Int) :
    (s.occurrencesOf run symbol none).Perm (s.occurrencesShown run symbol) := by
  refine (List.mergeSort_perm _ _).trans (List.Perm.of_eq (List.filterMap_congr fun o _ => ?_))
  simp

theorem occurrencesOf_role_perm (s : Store) (run symbol : Int) (role : Role) :
    (s.occurrencesOf run symbol (some role)).Perm
      ((s.occurrencesShown run symbol).filter fun d => d.role == role) := by
  refine (List.mergeSort_perm _ _).trans (List.Perm.of_eq ?_)
  unfold occurrencesShown
  rw [List.filter_filterMap]
  refine List.filterMap_congr fun o _ => ?_
  by_cases hp : o.run = run ∧ o.symbol = symbol
  · by_cases hr : role = o.role
    · cases s.location? o.document o.range <;> simp [Option.filter, hp, hr]
    · cases s.location? o.document o.range <;> simp [Option.filter, hp, hr, Ne.symm hr]
  · have hn : ¬ (o.run = run ∧ o.symbol = symbol ∧ (some role).all (· == o.role) = true) :=
      fun h => hp ⟨h.1, h.2.1⟩
    simp only [if_neg hp, if_neg hn]
    rfl

theorem perm_roles (list : List OccurrenceDetails) :
    list.Perm (Role.all.flatMap fun role => list.filter fun d => d.role == role) := by
  refine List.perm_iff_count.mpr fun d => ?_
  simp only [Role.all, List.flatMap_cons, List.flatMap_nil, List.append_nil, List.count_append]
  have part : ∀ role, (list.filter fun d => d.role == role).count d =
      if d.role = role then list.count d else 0 := by
    intro role
    split
    next h => exact List.count_filter (beq_iff_eq.mpr h)
    next h => exact List.count_eq_zero.mpr fun hm => h (beq_iff_eq.mp (List.mem_filter.mp hm).2)
  simp only [part]
  cases d.role <;> simp

theorem occurrencesOf_perm_roles (s : Store) (run symbol : Int) :
    (s.occurrencesOf run symbol none).Perm
      (Role.all.flatMap fun role => s.occurrencesOf run symbol (some role)) := by
  refine (occurrencesOf_all_perm s run symbol).trans ((perm_roles _).trans ?_)
  exact List.Perm.flatMap_left _ fun role _ => (occurrencesOf_role_perm s run symbol role).symm

theorem InRun.location {document range : Int} (h : s.InRun run document range) :
    (s.location? document range).isSome = true := by
  obtain ⟨r, d, hr, -, hd, -⟩ := h.rows
  simp [location?, hr, hd]

/-- Every occurrence is shown, since its document and its range are there. -/
theorem length_occurrencesOf (h : s.Scoped) (run symbol : Int) :
    (s.occurrencesOf run symbol none).length =
      s.occurrences.countP fun o => o.run == run && o.symbol == symbol := by
  rw [(occurrencesOf_all_perm s run symbol).length_eq, occurrencesShown,
    List.length_filterMap_eq_countP]
  refine List.countP_congr fun o ho => ?_
  have hl := (h.occurrences o ho).1.location
  by_cases hp : o.run = run ∧ o.symbol = symbol
  · simp [hp, hl]
  · simp [hp]

theorem sum_occurrences (h : s.Scoped) (run : Int) :
    (s.symbols.rows.map fun r =>
      s.occurrences.countP fun o => o.run == run && o.symbol == r.1).sum =
      s.occurrenceTotal run := by
  let symbolsIn := (s.occurrences.filter fun o => o.run == run).map Occurrence.symbol
  have hcount : ∀ id, (s.occurrences.countP fun o => o.run == run && o.symbol == id) =
      symbolsIn.count id := by
    intro id
    rw [List.count, List.countP_map, List.countP_filter]
    refine List.countP_congr fun o _ => ?_
    simp [and_comm]
  have hnodup : (s.symbols.rows.map Prod.fst).Nodup :=
    List.pairwise_map.mpr (h.ordered.symbols.increasing.imp Int.ne_of_lt)
  have hmem : ∀ id ∈ (symbolsIn : Multiset Int), id ∈ (s.symbols.rows.map Prod.fst).toFinset := by
    intro id hid
    obtain ⟨o, ho, rfl⟩ := List.mem_map.mp (Multiset.mem_coe.mp hid)
    obtain ⟨l, hl, he, -⟩ := (h.occurrences o (List.mem_filter.mp ho).1).2
    obtain ⟨x, hx⟩ := Table.has_iff.mp (h.links l hl).2
    rw [List.mem_toFinset, ← he]
    exact List.mem_map.mpr ⟨_, Table.mem_of_get? hx, rfl⟩
  have hsum := Multiset.sum_count_eq_card hmem
  rw [List.sum_toFinset _ hnodup, List.map_map] at hsum
  calc (s.symbols.rows.map fun r =>
        s.occurrences.countP fun o => o.run == run && o.symbol == r.1).sum
      = (s.symbols.rows.map fun r => symbolsIn.count r.1).sum := by simp only [hcount]
    _ = symbolsIn.length := by simpa [Function.comp_def] using hsum
    _ = s.occurrenceTotal run := by
      rw [List.length_map, occurrenceTotal, List.countP_eq_length_filter]

end Store

/-- In every store that operations lead to, a search counts as many occurrences of a symbol as the
list of them shows; the list goes by document and then by where an occurrence starts, and consists
of the lists of the four roles; and the figures of a run sum up the lists of all symbols. -/
theorem occurrence_views_agree {s : Store} (h : Reachable s) (run : Int) :
    (∀ terms limit, ∀ m ∈ s.search run terms limit,
      m.occurrenceCount = (s.occurrencesOf run m.id none).length) ∧
    (∀ settings query limit found, s.searchByName settings run query limit = .ok found →
      ∀ m ∈ found, m.occurrenceCount = (s.occurrencesOf run m.id none).length) ∧
    (∀ symbol, (s.occurrencesOf run symbol none).Pairwise fun a b =>
      a.location.uri < b.location.uri ∨ a.location.uri = b.location.uri ∧
        (a.location.span.start.line < b.location.span.start.line ∨
          a.location.span.start.line = b.location.span.start.line ∧
            a.location.span.start.character ≤ b.location.span.start.character)) ∧
    (∀ symbol, (s.occurrencesOf run symbol none).Perm
      (Role.all.flatMap fun role => s.occurrencesOf run symbol (some role))) ∧
    (s.stats run).occurrences =
      (s.symbols.rows.map fun r => (s.occurrencesOf run r.1 none).length).sum := by
  have hs := h.scoped
  have counted : ∀ terms, ∀ m ∈ s.matching run terms,
      m.occurrenceCount = (s.occurrencesOf run m.id none).length := by
    intro terms m hm
    obtain ⟨-, -, hc⟩ := Store.mem_matching_iff.mp hm
    rw [Store.length_occurrencesOf hs, hc]
  refine ⟨fun terms limit m hm => ?_, fun settings query limit found hf m hm => ?_,
    fun symbol => ?_, Store.occurrencesOf_perm_roles s run, ?_⟩
  · exact counted terms m ((Store.takeLimit_sublist _ _).subset hm)
  · exact counted _ m (Store.mem_matching_of_search hf hm)
  · exact (Store.occurrencesOf_sorted s run symbol none).imp OccurrenceDetails.starts_of_le
  · simp only [Store.length_occurrencesOf hs]
    exact (Store.sum_occurrences hs run).symm

/-- The function of the sample is found with its one occurrence. -/
theorem sample_search_counts :
    let m : SymbolMatch := ⟨1, ⟨"npm", "a:f", "f", none⟩, 1⟩
    m ∈ sampleStore.search 1 ["f"] 10 ∧
      m.occurrenceCount = (sampleStore.occurrencesOf 1 1 none).length := by
  intro m
  have hm : m ∈ sampleStore.search 1 ["f"] 10 := by decide +kernel
  exact ⟨hm, (occurrence_views_agree reachable_sample 1).1 ["f"] 10 m hm⟩

end SymbolAtlas
