import SymbolAtlas.Proofs.Migration
import SymbolAtlas.Proofs.Stretches

namespace SymbolAtlas

/-- Letters and digits of ASCII, and the underscore. -/
def isNameChar (c : Char) : Bool := c.isAlphanum || c == '_'

def IsAscii (text : String) : Prop := ∀ c ∈ text.toList, c.toNat < 128

instance : DecidablePred IsAscii := fun text => List.decidableBAll _ text.toList

def HasNameChar (text : String) : Prop := ∃ c ∈ text.toList, isNameChar c = true

/-- Every stretch of the query begins a stretch of the name, whatever the case of letters. -/
def Begins (query name : String) : Prop :=
  ∀ w, IsStretch isNameChar w query.toList →
    ∃ v, IsStretch isNameChar v name.toList ∧ w.map Char.toLower <+: v.map Char.toLower

/-- Below 128, queries and the search index agree on what a word consists of. -/
theorem ascii_char {c : Char} (h : c.toNat < 128) :
    isTermChar c = isNameChar c ∧
      WordForm.ofChar c = if isNameChar c then .letter c.toLower.toNat else .separator := by
  have hall : ∀ n < 128, isTermChar (Char.ofNat n) = isNameChar (Char.ofNat n) ∧
      WordForm.ofChar (Char.ofNat n) =
        if isNameChar (Char.ofNat n) then .letter (Char.ofNat n).toLower.toNat else .separator := by
    decide +kernel
  have hc := hall c.toNat h
  rwa [Char.ofNat_toNat] at hc

theorem Cut.congr {keep keep' : Char → Bool} {cs : List Char} {rs : List (List Char)}
    (h : Cut keep cs rs) (he : ∀ c ∈ cs, keep c = keep' c) : Cut keep' cs rs := by
  induction h with
  | gap hgap => exact .gap fun c hc => (he c hc).symm.trans (hgap c hc)
  | @stretch gap part rest rs hgap hne hkeep hend _ ih =>
    simp only [List.mem_append] at he
    refine .stretch (fun c hc => ?_) hne (fun c hc => ?_) (fun c hc => ?_)
      (ih fun c hc => he c (.inr (.inr hc)))
    · exact (he c (.inl hc)).symm.trans (hgap c hc)
    · exact (he c (.inr (.inl hc))).symm.trans (hkeep c hc)
    · exact (he c (.inr (.inr (List.mem_of_head? hc)))).symm.trans (hend c hc)

theorem stretches_query {query : String} (h : IsAscii query) :
    stretches isTermChar query.toList = stretches isNameChar query.toList :=
  ((cut_stretches isTermChar _).congr fun c hc => (ascii_char (h c hc)).1).stretches_eq.symm

/-- The word that the search index makes of a stretch. -/
def wordOf (part : List Char) : Word := part.map fun c => c.toLower.toNat

theorem wordsFrom_letter {c : Char} (hn : isNameChar c = true) (ha : c.toNat < 128)
    (current : Option Word) (rest : List Char) :
    wordsFrom current (c :: rest) =
      wordsFrom (some (c.toLower.toNat :: current.getD [])) rest := by
  have hc : WordForm.ofChar c = .letter c.toLower.toNat := by rw [(ascii_char ha).2, if_pos hn]
  cases current <;> simp [wordsFrom, hc]

theorem wordsFrom_separator {c : Char} (hn : isNameChar c = false) (ha : c.toNat < 128)
    (current : Option Word) (rest : List Char) :
    wordsFrom current (c :: rest) =
      (current.map List.reverse).toList ++ wordsFrom none rest := by
  have hc : WordForm.ofChar c = .separator := by
    rw [(ascii_char ha).2, if_neg (by rw [hn]; exact Bool.false_ne_true)]
  cases current <;> simp [wordsFrom, hc]

theorem wordsFrom_gap {gap : List Char} (hgap : Gap isNameChar gap)
    (ha : ∀ c ∈ gap, c.toNat < 128) (rest : List Char) :
    wordsFrom none (gap ++ rest) = wordsFrom none rest := by
  induction gap with
  | nil => rfl
  | cons c gap ih =>
    rw [List.forall_mem_cons] at ha
    rw [List.cons_append, wordsFrom_separator (hgap c List.mem_cons_self) ha.1]
    exact ih (fun d hd => hgap d (List.mem_cons_of_mem c hd)) ha.2

theorem wordsFrom_some {part rest : List Char} {w : Word} (hkeep : ∀ c ∈ part, isNameChar c = true)
    (hend : ∀ c ∈ rest.head?, isNameChar c = false) (ha : ∀ c ∈ part ++ rest, c.toNat < 128) :
    wordsFrom (some w) (part ++ rest) = (w.reverse ++ wordOf part) :: wordsFrom none rest := by
  induction part generalizing w with
  | nil =>
    cases rest with
    | nil => simp [wordsFrom, wordOf]
    | cons c rest =>
      have hc := ha c List.mem_cons_self
      rw [List.nil_append, wordsFrom_separator (hend c rfl) hc,
        wordsFrom_separator (hend c rfl) hc]
      simp [wordOf]
  | cons c part ih =>
    rw [List.forall_mem_cons] at hkeep
    rw [List.cons_append, List.forall_mem_cons] at ha
    rw [List.cons_append, wordsFrom_letter hkeep.1 ha.1, ih hkeep.2 ha.2]
    simp [wordOf]

theorem Cut.words_eq {cs : List Char} {rs : List (List Char)} (h : Cut isNameChar cs rs)
    (ha : ∀ c ∈ cs, c.toNat < 128) : wordsFrom none cs = rs.map wordOf := by
  induction h with
  | gap hgap =>
    have hw := wordsFrom_gap hgap ha []
    rwa [List.append_nil] at hw
  | @stretch gap part rest rs hgap hne hkeep hend _ ih =>
    rw [List.forall_mem_append] at ha
    have hrest := ih (List.forall_mem_append.mp ha.2).2
    obtain ⟨c, part, rfl⟩ := List.exists_cons_of_ne_nil hne
    obtain ⟨hgapAscii, ha⟩ := ha
    rw [List.forall_mem_cons] at hkeep
    rw [List.cons_append, List.forall_mem_cons] at ha
    rw [wordsFrom_gap hgap hgapAscii, List.cons_append, wordsFrom_letter hkeep.1 ha.1,
      wordsFrom_some hkeep.2 hend ha.2, hrest]
    rfl

theorem words_eq {text : String} (h : IsAscii text) :
    words text = (stretches isNameChar text.toList).map wordOf :=
  (cut_stretches isNameChar text.toList).words_eq h

theorem phrases_query {query : String} (h : IsAscii query) :
    phrases (queryTerms query) = (stretches isNameChar query.toList).map fun r => [wordOf r] := by
  have hcut := cut_stretches isNameChar query.toList
  have hterm : ∀ r ∈ stretches isNameChar query.toList, words (String.ofList r) = [wordOf r] := by
    intro r hr
    obtain ⟨hne, hkeep⟩ := hcut.stretch_of_mem hr
    obtain ⟨-, -, before, after, hsplit, -⟩ := mem_stretches_iff.mp hr
    have hself : stretches isNameChar (r ++ []) = r :: stretches isNameChar [] :=
      stretches_append_of_stretch hne hkeep nofun
    rw [List.append_nil] at hself
    have ha : IsAscii (String.ofList r) := by
      intro c hc
      rw [String.toList_ofList] at hc
      refine h c ?_
      rw [hsplit]
      exact List.mem_append_right _ (List.mem_append_left _ hc)
    rw [words_eq ha, String.toList_ofList, hself]
    rfl
  unfold phrases queryTerms
  rw [stretches_query h, List.map_map]
  have hmap : (stretches isNameChar query.toList).map (words ∘ String.ofList) =
      (stretches isNameChar query.toList).map fun r => [wordOf r] := List.map_congr_left hterm
  rw [hmap, List.filter_eq_self]
  intro p hp
  obtain ⟨r, -, rfl⟩ := List.mem_map.mp hp
  rfl

theorem hasPhrase_single {w : Word} {ws : List Word} :
    hasPhrase [w] ws = true ↔ ∃ v ∈ ws, w <+: v := by
  induction ws with
  | nil => simp [hasPhrase, startsWithPhrase]
  | cons v ws ih => simp [hasPhrase, startsWithPhrase, ih]

theorem wordOf_prefix_iff {w v : List Char} :
    wordOf w <+: wordOf v ↔ w.map Char.toLower <+: v.map Char.toLower := by
  have hinj : Function.Injective Char.toNat := fun _ _ => Char.toNat_inj.mp
  have hword : ∀ part, wordOf part = (part.map Char.toLower).map Char.toNat := fun part => by
    rw [List.map_map]
    rfl
  rw [hword, hword, List.prefix_map_iff_of_injective hinj]

theorem hasPhrase_wordOf_iff {w : List Char} {name : String} (h : IsAscii name) :
    hasPhrase [wordOf w] (words name) = true ↔
      ∃ v, IsStretch isNameChar v name.toList ∧ w.map Char.toLower <+: v.map Char.toLower := by
  rw [words_eq h, hasPhrase_single]
  constructor
  · rintro ⟨u, hu, hpre⟩
    obtain ⟨v, hv, rfl⟩ := List.mem_map.mp hu
    exact ⟨v, mem_stretches_iff.mp hv, wordOf_prefix_iff.mp hpre⟩
  · rintro ⟨v, hv, hpre⟩
    exact ⟨_, List.mem_map_of_mem (mem_stretches_iff.mpr hv), wordOf_prefix_iff.mpr hpre⟩

theorem HasNameChar.stretches_ne_nil {text : String} (h : HasNameChar text) :
    stretches isNameChar text.toList ≠ [] := by
  obtain ⟨c, hc, hn⟩ := h
  intro hnil
  have hgap := (cut_stretches isNameChar text.toList).eq_nil_iff.mp hnil c hc
  rw [hn] at hgap
  cases hgap

theorem matchesAny_iff {query : String} (hq : IsAscii query) (hr : HasNameChar query)
    {names : List String} (hn : ∀ name ∈ names, IsAscii name) :
    matchesAny (phrases (queryTerms query)) names = true ↔
      ∀ w, IsStretch isNameChar w query.toList → ∃ name ∈ names, ∃ v,
        IsStretch isNameChar v name.toList ∧ w.map Char.toLower <+: v.map Char.toLower := by
  have hne := hr.stretches_ne_nil
  rw [phrases_query hq, matchesAny]
  simp only [Bool.and_eq_true, Bool.not_eq_true', List.isEmpty_eq_false_iff, List.all_eq_true,
    List.any_eq_true, List.forall_mem_map, ne_eq, List.map_eq_nil_iff, hne, not_false_eq_true,
    true_and]
  refine forall_congr' fun w => ?_
  rw [mem_stretches_iff]
  refine imp_congr_right fun _ => exists_congr fun name => and_congr_right fun hname => ?_
  exact hasPhrase_wordOf_iff (hn name hname)

theorem afterLastColon?_some {cs tail : List Char} (h : afterLastColon? cs = some tail) :
    ∃ before, cs = before ++ ':' :: tail := by
  induction cs generalizing tail with
  | nil => cases h
  | cons c rest ih =>
    rw [afterLastColon?] at h
    split at h
    next t ht =>
      cases h
      obtain ⟨before, rfl⟩ := ih ht
      exact ⟨c :: before, rfl⟩
    next =>
      split at h
      next hc =>
        cases h
        exact ⟨[], by rw [hc, List.nil_append]⟩
      next => cases h

/-- A qualified name is the whole identifier or what stands behind a colon of it. -/
theorem qualifiedChars_cases (cs : List Char) :
    qualifiedChars cs = cs ∨ ∃ before, cs = before ++ ':' :: qualifiedChars cs := by
  unfold qualifiedChars
  split
  next => exact .inl rfl
  next =>
    split
    next c tail h => exact .inr (afterLastColon?_some h)
    next => exact .inl rfl

theorem IsStretch.of_qualified {part cs : List Char}
    (h : IsStretch isNameChar part (qualifiedChars cs)) :
    IsStretch isNameChar part cs := by
  rcases qualifiedChars_cases cs with he | ⟨before, he⟩
  · rwa [he] at h
  · rw [he, ← mem_stretches_iff]
    have hcolon : ∀ c ∈ (':' :: qualifiedChars cs).head?, isNameChar c = false := by
      intro c hc
      cases Option.some.inj hc
      rfl
    rw [stretches_append (.inr hcolon), stretches_cons_of_not rfl]
    exact List.mem_append_right _ (mem_stretches_iff.mpr h)

theorem isAscii_qualifiedName {identifier : String} (h : IsAscii identifier) :
    IsAscii (qualifiedName identifier) := by
  intro c hc
  rw [qualifiedName, String.toList_ofList] at hc
  refine h c ?_
  rcases qualifiedChars_cases identifier.toList with he | ⟨before, he⟩
  · rwa [he] at hc
  · rw [he]
    exact List.mem_append_right _ (List.mem_cons_of_mem _ hc)

theorem Begins.refl (name : String) : Begins name name := fun w hw => ⟨w, hw, List.prefix_refl _⟩

theorem begins_qualifiedName (identifier : String) :
    Begins (qualifiedName identifier) identifier := by
  intro w hw
  rw [qualifiedName, String.toList_ofList] at hw
  exact ⟨w, hw.of_qualified, List.prefix_refl _⟩

/-- The identifier alone decides whether a symbol matches. -/
theorem matchesAny_names_iff {query identifier : String} (hq : IsAscii query)
    (hr : HasNameChar query) (hi : IsAscii identifier) :
    (matchesAny (phrases (queryTerms query)) [qualifiedName identifier, identifier] = true ↔
      Begins query identifier) ∧
    (matchesAny (phrases (queryTerms query)) [identifier] = true ↔ Begins query identifier) := by
  have hqual := isAscii_qualifiedName hi
  constructor
  · rw [matchesAny_iff hq hr (by simp [hqual, hi])]
    refine forall_congr' fun w => imp_congr_right fun _ => ?_
    constructor
    · rintro ⟨name, hname, v, hv, hpre⟩
      simp only [List.mem_cons, List.not_mem_nil, or_false] at hname
      rcases hname with rfl | rfl
      · rw [qualifiedName, String.toList_ofList] at hv
        exact ⟨v, hv.of_qualified, hpre⟩
      · exact ⟨v, hv, hpre⟩
    · rintro ⟨v, hv, hpre⟩
      exact ⟨identifier, by simp, v, hv, hpre⟩
  · rw [matchesAny_iff hq hr (by simp [hi])]
    simp [Begins]

/-- The stores that operations lead to, with more symbols that were added one by one. -/
inductive ReachableWithSymbols : Store → Prop where
  | reachable {s : Store} (h : Reachable s) : ReachableWithSymbols s
  | interned {s t : Store} {scheme identifier : String} {kind : Option String} {access : Access}
      {id : Int} (h : ReachableWithSymbols s)
      (hi : internSymbol scheme identifier kind access s = (.ok id, t)) : ReachableWithSymbols t

theorem ReachableWithSymbols.named {s : Store} (h : ReachableWithSymbols s) :
    s.symbols.Ordered ∧ s.Indexed ∧
      ∀ r ∈ s.symbols.rows, r.2.qualifiedName = qualifiedName r.2.identifier := by
  induction h with
  | reachable h =>
    obtain ⟨hc, -⟩ := h.catalogued
    exact ⟨h.scoped.ordered.symbols, hc.index, hc.qualified⟩
  | @interned s _ scheme identifier kind access id _ hi ih =>
    obtain ⟨-, -, rfl⟩ := internSymbol_ok_iff.mp hi
    obtain ⟨ho, hx, hq⟩ := ih
    have hedit : s.Edit (s.withSymbol scheme identifier kind) := Store.edit_withSymbol _ _ _
    refine ⟨hedit.ordered ho, hedit.indexed hx, ?_⟩
    unfold Store.withSymbol
    cases s.symbolNamed? scheme identifier with
    | some r => exact hq
    | none =>
      intro r hr
      rcases Table.mem_insert_iff.mp hr with hold | rfl
      · exact hq r hold
      · rfl

theorem ReachableWithSymbols.mem_matching_iff {s : Store} (h : ReachableWithSymbols s) (run : Int)
    {terms : List String} {id : Int} {x : Symbol} (hx : s.symbols.get? id = some x) :
    (∃ m ∈ s.matching run terms, m.id = id ∧ m.symbol = x) ↔
      matchesAny (phrases terms) [qualifiedName x.identifier, x.identifier] = true := by
  obtain ⟨ho, hi, hq⟩ := h.named
  rw [← hq _ (Table.mem_of_get? hx)]
  constructor
  · rintro ⟨m, hm, -, rfl⟩
    exact ((Store.mem_matching_indexed ho hi).mp hm).2.1
  · intro hmatch
    let m : SymbolMatch := ⟨id, x, s.occurrences.countP fun o => o.run == run && o.symbol == id⟩
    have hm : m ∈ s.matching run terms :=
      (Store.mem_matching_indexed ho hi).mpr ⟨hx, hmatch, rfl⟩
    exact ⟨m, hm, rfl, rfl⟩

/-- With ASCII names, a query finds the symbols of which each of its stretches begins a stretch of
the identifier, whatever the case of letters; the qualified name has no say in it.  So a symbol is
found under its own identifier and under its qualified name if they have a stretch at all, up to the
limit of the search. -/
theorem search_by_beginnings {s : Store} (h : ReachableWithSymbols s) :
    (∀ query, IsAscii query → HasNameChar query → ∀ run, ∃ all : List SymbolMatch,
      (∀ settings limit, limit ≠ some 0 →
        s.searchByName settings run query limit =
          .ok (takeLimit (settings.limitFor limit) all)) ∧
      (∀ m ∈ all, s.symbols.get? m.id = some m.symbol) ∧
      ∀ id x, s.symbols.get? id = some x → IsAscii x.identifier →
        ((∃ m ∈ all, m.id = id ∧ m.symbol = x) ↔ Begins query x.identifier) ∧
        matchesAny (phrases (queryTerms query)) [x.qualifiedName, x.identifier] =
          matchesAny (phrases (queryTerms query)) [x.identifier]) ∧
    ∀ id x, s.symbols.get? id = some x → IsAscii x.identifier →
      ∀ name, name = x.identifier ∨ name = x.qualifiedName → HasNameChar name →
        ∀ settings run limit, limit ≠ some 0 → ∃ found,
          s.searchByName settings run name limit = .ok found ∧
            ((∃ m ∈ found, m.id = id ∧ m.symbol = x) ∨
              settings.limitFor limit ≤ found.length) := by
  obtain ⟨ho, hi, hqual⟩ := h.named
  constructor
  · intro query hq hr run
    refine ⟨s.matching run (queryTerms query),
      fun settings limit hlimit => Store.searchByName_eq settings run query hlimit,
      fun m hm => ((Store.mem_matching_indexed ho hi).mp hm).1, fun id x hx ha => ?_⟩
    obtain ⟨hboth, hone⟩ := matchesAny_names_iff hq hr ha
    refine ⟨(h.mem_matching_iff _ hx).trans hboth, ?_⟩
    rw [hqual _ (Table.mem_of_get? hx), Bool.eq_iff_iff, hboth, hone]
  · intro id x hx ha name hname hr settings run limit hlimit
    rw [hqual _ (Table.mem_of_get? hx)] at hname
    have hbegins : IsAscii name ∧ Begins name x.identifier := by
      rcases hname with rfl | rfl
      · exact ⟨ha, .refl _⟩
      · exact ⟨isAscii_qualifiedName ha, begins_qualifiedName _⟩
    have hmatch := (matchesAny_names_iff hbegins.1 hr ha).1.mpr hbegins.2
    obtain ⟨m, hm, hid, hsym⟩ := (h.mem_matching_iff run hx).mpr hmatch
    refine ⟨_, Store.searchByName_eq settings run name hlimit, ?_⟩
    exact (Store.mem_takeLimit hm).imp_left fun hin => ⟨m, hin, hid, hsym⟩

def prefixedSymbol : Symbol := ⟨"tsc", "src/a.ts:Foo.bar_baz", "Foo.bar_baz", none⟩

def prefixedStore : Store where
  symbols := ⟨1, [(1, prefixedSymbol)]⟩
  searchIndex := [⟨1, "Foo.bar_baz", "src/a.ts:Foo.bar_baz"⟩]

/-- Stretches may begin in the file name and in the qualified name, but not inside a stretch. -/
theorem prefixed_found :
    prefixedStore.searchByName {} 1 "BAR_ ts" none = .ok [⟨1, prefixedSymbol, 0⟩] ∧
      Begins "BAR_ ts" "src/a.ts:Foo.bar_baz" ∧ ¬ Begins "baz" "src/a.ts:Foo.bar_baz" := by
  have hintern : internSymbol "tsc" "src/a.ts:Foo.bar_baz" none {} .empty =
      (.ok 1, prefixedStore) := by
    decide +kernel
  obtain ⟨hsearch, -⟩ := search_by_beginnings (.interned (.reachable .empty) hintern)
  have hascii : IsAscii prefixedSymbol.identifier := by decide
  -- A limit of `2 ^ 63` lets all matches through.
  have hbegins (query : String) (hq : IsAscii query) (hr : query.toList.any isNameChar = true)
      (found : List SymbolMatch)
      (hf : prefixedStore.searchByName { maxSearchLimit := some (2 ^ 64 - 1) } 1 query
        (some (2 ^ 63)) = .ok found) :
      (∃ m ∈ found, m.id = 1 ∧ m.symbol = prefixedSymbol) ↔
        Begins query "src/a.ts:Foo.bar_baz" := by
    obtain ⟨all, hall, -, hiff⟩ := hsearch query hq (List.any_eq_true.mp hr) 1
    have heq : found = all := Except.ok.inj (hf.symm.trans (hall _ _ (by decide)))
    rw [heq]
    exact (hiff 1 prefixedSymbol rfl hascii).1
  refine ⟨by decide +kernel, ?_, fun hb => ?_⟩
  · refine (hbegins "BAR_ ts" (by decide) (by decide)
      [⟨1, prefixedSymbol, 0⟩] (by decide +kernel)).mp ?_
    exact ⟨_, List.mem_cons_self, rfl, rfl⟩
  · obtain ⟨m, hm, -⟩ := (hbegins "baz" (by decide) (by decide) []
      (by decide +kernel)).mpr hb
    cases hm

end SymbolAtlas
