import Mathlib.Data.Prod.Lex
import Mathlib.Data.String.Basic
import SymbolAtlas.Proofs.Catalog
import SymbolAtlas.Proofs.Valid

namespace SymbolAtlas

def textBytes (s : String) : List UInt8 := s.toUTF8.data.toList

theorem textBytes_eq (s : String) : textBytes s = s.toList.flatMap String.utf8EncodeChar := by
  have hencode : s.toUTF8 = s.toList.utf8Encode := String.utf8Encode_toList.symm
  unfold textBytes
  rw [hencode]
  exact List.toList_data_toByteArray

theorem bytes_lt {a b : Nat} {x y : List UInt8} (hle : a ≤ b) (hb : b < 256)
    (h : a = b → x < y) : UInt8.ofNat a :: x < UInt8.ofNat b :: y := by
  rw [List.cons_lt_cons_iff, UInt8.lt_iff_toNat_lt, UInt8.toNat_ofNat', UInt8.toNat_ofNat']
  by_cases hab : a = b
  · exact .inr ⟨congrArg _ hab, h hab⟩
  · exact .inl (by omega)

/-- Characters differ before their codes end, so that nothing behind them matters. -/
theorem utf8EncodeChar_lt {c d : Char} (h : c < d) (x y : List UInt8) :
    String.utf8EncodeChar c ++ x < String.utf8EncodeChar d ++ y := by
  have hlt : c.val.toNat < d.val.toNat := h
  have hd : d.val.toNat < 0x110000 := by
    have hv : d.val.toNat < 0xD800 ∨ 0xDFFF < d.val.toNat ∧ d.val.toNat < 0x110000 := d.valid
    omega
  unfold String.utf8EncodeChar
  dsimp only
  generalize c.val.toNat = v at hlt
  generalize d.val.toNat = w at hlt hd
  -- The first byte tells how many there are, and a shorter code has a smaller one.
  by_cases hw1 : w ≤ 127
  · rw [if_pos hw1, if_pos (by omega)]
    exact bytes_lt (by omega) (by omega) fun _ => by omega
  rw [if_neg hw1]
  by_cases hv1 : v ≤ 127
  · rw [if_pos hv1]
    split
    · exact bytes_lt (by omega) (by omega) fun _ => by omega
    · split <;> exact bytes_lt (by omega) (by omega) fun _ => by omega
  rw [if_neg hv1]
  by_cases hw2 : w ≤ 2047
  · rw [if_pos hw2, if_pos (by omega)]
    exact bytes_lt (by omega) (by omega) fun _ => bytes_lt (by omega) (by omega) fun _ => by omega
  rw [if_neg hw2]
  by_cases hv2 : v ≤ 2047
  · rw [if_pos hv2]
    split <;> exact bytes_lt (by omega) (by omega) fun _ => by omega
  rw [if_neg hv2]
  by_cases hw3 : w ≤ 65535
  · rw [if_pos hw3, if_pos (by omega)]
    exact bytes_lt (by omega) (by omega) fun _ => bytes_lt (by omega) (by omega) fun _ =>
      bytes_lt (by omega) (by omega) fun _ => by omega
  rw [if_neg hw3]
  by_cases hv3 : v ≤ 65535
  · rw [if_pos hv3]
    exact bytes_lt (by omega) (by omega) fun _ => by omega
  rw [if_neg hv3]
  exact bytes_lt (by omega) (by omega) fun _ => bytes_lt (by omega) (by omega) fun _ =>
    bytes_lt (by omega) (by omega) fun _ => bytes_lt (by omega) (by omega) fun _ => by omega

theorem flatMap_utf8EncodeChar_lt {cs ds : List Char} (h : cs < ds) :
    cs.flatMap String.utf8EncodeChar < ds.flatMap String.utf8EncodeChar := by
  induction cs generalizing ds with
  | nil =>
    cases ds with
    | nil => simp at h
    | cons d ds =>
      have hne : String.utf8EncodeChar d ≠ [] := String.utf8EncodeChar_ne_nil
      obtain ⟨first, rest, hcode⟩ := List.exists_cons_of_ne_nil hne
      rw [List.flatMap_nil, List.flatMap_cons, hcode]
      exact List.nil_lt_cons _ _
  | cons c cs ih =>
    cases ds with
    | nil => simp at h
    | cons d ds =>
      rw [List.flatMap_cons, List.flatMap_cons]
      rcases List.cons_lt_cons_iff.mp h with hcd | ⟨rfl, hrest⟩
      · exact utf8EncodeChar_lt hcd _ _
      · exact List.append_left_lt (ih hrest)

theorem textBytes_lt {s t : String} (h : s < t) : textBytes s < textBytes t := by
  rw [textBytes_eq, textBytes_eq]
  exact flatMap_utf8EncodeChar_lt (String.lt_iff_toList_lt.mp h)

/-- Symbols are listed by the bytes of their qualified names, and then by their numbers. -/
def ListedBefore (a b : Int × Symbol) : Prop :=
  textBytes a.2.qualifiedName < textBytes b.2.qualifiedName ∨
    a.2.qualifiedName = b.2.qualifiedName ∧ a.1 < b.1

instance : DecidableRel ListedBefore := fun _ _ => inferInstanceAs (Decidable (_ ∨ _))

theorem ListedBefore.asymm {a b : Int × Symbol} (h : ListedBefore a b) : ¬ ListedBefore b a := by
  rcases h with h | ⟨he, h⟩
  · rintro (h' | ⟨he, -⟩)
    · exact List.lt_asymm h h'
    · rw [he] at h
      exact List.lt_irrefl _ h
  · rintro (h' | ⟨-, h'⟩)
    · rw [he] at h'
      exact List.lt_irrefl _ h'
    · omega

theorem eq_of_listed {list list' : List (Int × Symbol)} (h : list.Pairwise ListedBefore)
    (h' : list'.Pairwise ListedBefore) (hmem : ∀ r, r ∈ list ↔ r ∈ list') : list = list' := by
  have nodup {l : List (Int × Symbol)} (hl : l.Pairwise ListedBefore) : l.Nodup :=
    hl.imp fun hab he => (he ▸ hab).asymm (he ▸ hab)
  refine List.Perm.eq_of_pairwise (fun a b _ _ hab hba => absurd hba hab.asymm) h h' ?_
  exact (List.perm_ext_iff_of_nodup (nodup h) (nodup h')).mpr hmem

namespace SymbolMatch

def listed (m : SymbolMatch) : Int × Symbol := (m.id, m.symbol)

def place (m : SymbolMatch) : String ×ₗ Int := toLex (m.symbol.qualifiedName, m.id)

theorem le_iff_place (a b : SymbolMatch) : a.le b = true ↔ a.place ≤ b.place := by
  simp only [le, textKeyLe, keyLe, place, Prod.Lex.le_iff, Bool.or_eq_true, Bool.and_eq_true,
    decide_eq_true_eq, ofLex_toLex, and_true]
  rw [Int.le_iff_lt_or_eq]

theorem listedBefore_of_le {a b : SymbolMatch} (h : a.le b = true) (hne : a.id ≠ b.id) :
    ListedBefore a.listed b.listed := by
  rcases Prod.Lex.le_iff.mp ((le_iff_place a b).mp h) with hlt | ⟨heq, hle⟩
  · exact .inl (textBytes_lt hlt)
  · exact .inr ⟨heq, lt_of_le_of_ne hle hne⟩

end SymbolMatch

namespace Store

variable {s : Store}

/-- A symbol as a search in a run shows it. -/
def counted (s : Store) (run : Int) (r : Int × Symbol) : SymbolMatch :=
  ⟨r.1, r.2, s.occurrences.countP fun o => o.run == run && o.symbol == r.1⟩

/-- All symbols that match the terms; which run is asked does not matter. -/
def listing (s : Store) (terms : List String) : List (Int × Symbol) :=
  (s.matching 0 terms).map SymbolMatch.listed

theorem matching_eq_counted (s : Store) (run : Int) (terms : List String) :
    s.matching run terms = (s.listing terms).map (s.counted run) := by
  have hle : ∀ a b : SymbolMatch,
      a.le b = ((s.counted run ∘ SymbolMatch.listed) a).le
        ((s.counted run ∘ SymbolMatch.listed) b) := fun _ _ => rfl
  unfold listing matching
  dsimp only
  rw [List.map_map, List.map_mergeSort fun a _ b _ => hle a b, List.map_filterMap]
  congr 1
  refine List.filterMap_congr fun e _ => ?_
  split
  next => cases s.symbols.get? e.symbol <;> rfl
  next => rfl

theorem listing_pairwise (h : s.Scoped) (hc : s.Catalogued) (terms : List String) :
    (s.listing terms).Pairwise ListedBefore := by
  have hsorted : (s.matching 0 terms).Pairwise fun a b => a.le b = true := by
    refine List.pairwise_mergeSort (fun a b c hab hbc => ?_) (fun a b => ?_) _
    · rw [SymbolMatch.le_iff_place] at hab hbc ⊢
      exact hab.trans hbc
    · rw [Bool.or_eq_true, SymbolMatch.le_iff_place, SymbolMatch.le_iff_place]
      exact le_total _ _
  refine List.pairwise_map.mpr ((hsorted.and (matching_once h hc 0 terms)).imp ?_)
  rintro a b ⟨hle, hne⟩
  exact SymbolMatch.listedBefore_of_le hle hne

theorem mem_listing_iff (h : s.Scoped) (hc : s.Catalogued) {terms : List String}
    {r : Int × Symbol} :
    r ∈ s.listing terms ↔ s.symbols.get? r.1 = some r.2 ∧
      matchesAny (phrases terms) [r.2.qualifiedName, r.2.identifier] = true := by
  constructor
  · intro hr
    obtain ⟨m, hm, rfl⟩ := List.mem_map.mp hr
    obtain ⟨hg, hmatch, -⟩ := (mem_matching_catalogued h hc).mp hm
    exact ⟨hg, hmatch⟩
  · rintro ⟨hg, hmatch⟩
    have hm : s.counted 0 r ∈ s.matching 0 terms :=
      (mem_matching_catalogued h hc).mpr ⟨hg, hmatch, rfl⟩
    exact List.mem_map.mpr ⟨_, hm, rfl⟩

theorem listing_nodup (h : s.Scoped) (hc : s.Catalogued) (terms : List String) :
    ((s.listing terms).map Prod.fst).Nodup := by
  rw [listing, List.map_map]
  exact List.pairwise_map.mpr (matching_once h hc 0 terms)

theorem listing_of_none {query : String} (h : queryText? query = none) :
    s.listing (queryTerms query) = [] := by
  unfold queryText? at h
  split at h
  next hnone => simp [listing, matching, hnone, phrases, matchesAny]
  next => cases h

end Store

theorem takeLimit_of_lt {α : Type} {limit : Nat} (h : limit < 2 ^ 63) (list : List α) :
    takeLimit limit list = list.take limit := if_pos h

theorem takeLimit_of_le {α : Type} {limit : Nat} (h : 2 ^ 63 ≤ limit) (list : List α) :
    takeLimit limit list = list := if_neg (Nat.not_lt.mpr h)

theorem takeLimit_initial {α : Type} {limit limit' : Nat} (h : limit ≤ limit') (list : List α) :
    takeLimit limit list <+: takeLimit limit' list := by
  by_cases hlt : limit' < 2 ^ 63
  · rw [takeLimit_of_lt hlt, takeLimit_of_lt (Nat.lt_of_le_of_lt h hlt)]
    exact List.take_prefix_take_left h
  · rw [takeLimit_of_le (Nat.le_of_not_lt hlt)]
    unfold takeLimit
    split
    next => exact ⟨list.drop limit, List.take_append_drop limit list⟩
    next => exact List.prefix_refl list

namespace Settings

variable {c : Settings}

theorem limitFor_of_validate (h : c.validate = .ok c) :
    (∀ limit, limit ≠ some 0 →
      1 ≤ c.query.limitFor limit ∧ c.query.limitFor limit ≤ c.query.limitCap) ∧
    c.query.limitFor none = c.query.usualLimit := by
  obtain ⟨-, hvalid⟩ := validate_eq_ok_iff.mp h
  refine ⟨fun limit hlimit => ⟨?_, Nat.min_le_right _ _⟩, Nat.min_eq_left hvalid.cap⟩
  have hpos := getD_pos hlimit hvalid.usual
  have hcap := Nat.le_trans hvalid.usual hvalid.cap
  unfold QuerySettings.limitFor
  omega

end Settings

/-- A search gives the beginning of one list, as far as its limit goes.  The list holds every symbol
that matches the query, once and in the order of the bytes of the names; the run that is asked
decides on the counts and on nothing else.  A limit that no signed word of 64 bits can hold is
none, and under valid settings a limit is between one and the cap. -/
theorem search_gives_beginning {s : Store} (h : Reachable s) (query : String) :
    (∃ list : List (Int × Symbol),
      list.Pairwise ListedBefore ∧ (list.map Prod.fst).Nodup ∧
      (∀ id x, (id, x) ∈ list ↔ s.symbols.get? id = some x ∧
        matchesAny (phrases (queryTerms query)) [x.qualifiedName, x.identifier] = true) ∧
      (queryText? query = none → list = []) ∧
      ∀ settings run limit, limit ≠ some 0 →
        (settings.limitFor limit < 2 ^ 63 → s.searchByName settings run query limit =
          .ok ((list.take (settings.limitFor limit)).map (s.counted run))) ∧
        (2 ^ 63 ≤ settings.limitFor limit →
          s.searchByName settings run query limit = .ok (list.map (s.counted run)))) ∧
    (∀ settings run limit limit' found found',
      s.searchByName settings run query limit = .ok found →
      s.searchByName settings run query limit' = .ok found' →
      settings.limitFor limit ≤ settings.limitFor limit' → found <+: found') ∧
    (∀ (settings : QuerySettings) n m, n ≤ m →
      settings.limitFor (some n) ≤ settings.limitFor (some m)) ∧
    ∀ c : Settings, c.validate = .ok c →
      (∀ limit, limit ≠ some 0 →
        1 ≤ c.query.limitFor limit ∧ c.query.limitFor limit ≤ c.query.limitCap) ∧
      c.query.limitFor none = c.query.usualLimit := by
  have hs := h.scoped
  obtain ⟨hc, -⟩ := h.catalogued
  refine ⟨⟨s.listing (queryTerms query), Store.listing_pairwise hs hc _,
    Store.listing_nodup hs hc _, fun id x => Store.mem_listing_iff hs hc, Store.listing_of_none,
    fun settings run limit hlimit => ?_⟩, ?_, fun settings n m hle => min_le_min_right _ hle,
    fun c hv => Settings.limitFor_of_validate hv⟩
  · have hsearch := Store.searchByName_eq (s := s) settings run query hlimit
    rw [Store.matching_eq_counted] at hsearch
    constructor
    · intro hlt
      rw [hsearch, takeLimit_of_lt hlt, List.map_take]
    · intro hle
      rw [hsearch, takeLimit_of_le hle]
  · intro settings run limit limit' found found' hf hf' hle
    have nonzero {limit found} (hfound : s.searchByName settings run query limit = .ok found) :
        limit ≠ some 0 := by
      rintro rfl
      cases hfound
    rw [Store.searchByName_eq settings run query (nonzero hf)] at hf
    rw [Store.searchByName_eq settings run query (nonzero hf')] at hf'
    cases hf
    cases hf'
    exact takeLimit_initial hle _

/-- Two monikers, the first with the name that comes last: `é` is after `z`. -/
def accentedDump : ByteStream where
  content := [
    "[\"vertex\",\"moniker\",1,\"npm\",\"a:fé\",null,null]",
    "[\"vertex\",\"moniker\",2,\"npm\",\"a:fz\",null,null]"].flatMap fun line =>
      line.toUTF8.toList ++ [10]

def accentedReport : Report where
  run := 1
  lines := 2
  vertices := 2
  derivation := some ⟨0, 0, 0, 0⟩

def accentedStore : Store where
  runs := ⟨1, [(1, { repo := none, commit := none, createdAt := 0 })]⟩
  monikers := ⟨2, [(1, ⟨1, "npm", "a:fé", none, none⟩), (2, ⟨1, "npm", "a:fz", none, none⟩)]⟩
  symbols := ⟨2, [(1, ⟨"npm", "a:fé", "fé", none⟩), (2, ⟨"npm", "a:fz", "fz", none⟩)]⟩
  links := [⟨1, 1⟩, ⟨2, 2⟩]
  searchIndex := [⟨1, "fé", "a:fé"⟩, ⟨2, "fz", "a:fz"⟩]

def accentedListing : List (Int × Symbol) :=
  [(2, ⟨"npm", "a:fz", "fz", none⟩), (1, ⟨"npm", "a:fé", "fé", none⟩)]

/-- A limit of `2 ^ 63` gives both, also for a run that is not there. -/
theorem accented_beginning :
    accentedStore.searchByName {} 1 "F" (some 1) =
        .ok ((accentedListing.take 1).map (accentedStore.counted 1)) ∧
      accentedStore.searchByName { maxSearchLimit := some (2 ^ 64 - 1) } 7 "F" (some (2 ^ 63)) =
        .ok (accentedListing.map (accentedStore.counted 7)) := by
  have hi : ingest {} {} accentedDump {} .empty = (.ok accentedReport, accentedStore) := by
    decide +kernel
  obtain ⟨⟨list, hsorted, -, hmem, -, hsearch⟩, -⟩ :=
    search_gives_beginning (Reachable.empty.ingested hi) "F"
  have hlist : list = accentedListing := by
    refine eq_of_listed hsorted (by decide +kernel) fun r => ?_
    rw [hmem r.1 r.2]
    constructor
    · rintro ⟨hg, -⟩
      have hrow : r ∈ accentedStore.symbols.rows := Table.mem_of_get? hg
      simp only [accentedStore, List.mem_cons, List.not_mem_nil, or_false] at hrow
      rcases hrow with rfl | rfl <;> decide +kernel
    · intro hr
      simp only [accentedListing, List.mem_cons, List.not_mem_nil, or_false] at hr
      rcases hr with rfl | rfl <;> decide +kernel
  rw [← hlist]
  exact ⟨(hsearch {} 1 (some 1) (by decide)).1 (by decide),
    (hsearch _ 7 (some (2 ^ 63)) (by decide)).2 (by decide)⟩

end SymbolAtlas
