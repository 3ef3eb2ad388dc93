import SymbolAtlas.Proofs.Derived
import SymbolAtlas.Proofs.Grounded
import SymbolAtlas.Proofs.Removed

/-!
The portion of a store that belongs to one run.  What is done for other runs leaves it as it is.
-/

namespace SymbolAtlas

theorem filter_map_of_fixed {α : Type} {list : List α} {f : α → α} {q : α → Bool}
    (h : ∀ a ∈ list, q (f a) = q a ∧ (q a = true → f a = a)) :
    (list.map f).filter q = list.filter q := by
  induction list with
  | nil => rfl
  | cons a rest ih =>
    obtain ⟨hq, hf⟩ := h a List.mem_cons_self
    have hr := ih fun b hb => h b (List.mem_cons_of_mem _ hb)
    rw [List.map_cons, List.filter_cons, List.filter_cons, hq, hr]
    split
    next ha => rw [hf ha]
    next => rfl

namespace Table

variable {α : Type} {t : Table α} {p q : Int → α → Bool}

/-- Some of the rows, and nothing about the numbers that come next. -/
def part (t : Table α) (p : Int → α → Bool) : Table α := ⟨0, (t.keep p).rows⟩

theorem part_congr {t u : Table α} (hr : t.rows = u.rows)
    (h : ∀ r ∈ t.rows, p r.1 r.2 = q r.1 r.2) : t.part p = u.part q := by
  simp only [part, keep, ← hr, List.filter_congr h]

theorem part_insert {row : α} (h : p (t.last + 1) row = false) :
    (t.insert row).part p = t.part p := by
  simp [part, keep, h]

theorem part_map {f : Int × α → Int × α}
    (h : ∀ r ∈ t.rows, p (f r).1 (f r).2 = p r.1 r.2 ∧ (p r.1 r.2 = true → f r = r)) :
    ({ t with rows := t.rows.map f } : Table α).part p = t.part p := by
  have he : (t.rows.map f).filter (fun r => p r.1 r.2) = t.rows.filter fun r => p r.1 r.2 :=
    filter_map_of_fixed h
  simp only [part, keep, he]

theorem part_modify {id : Int} {change : α → α}
    (h : ∀ a, (id, a) ∈ t.rows → p id a = false ∧ p id (change a) = false) :
    (t.modify id change).part p = t.part p := by
  refine part_map fun r hr => ?_
  by_cases he : r.1 = id
  · obtain ⟨hp, hc⟩ := h r.2 (he ▸ hr)
    rw [if_pos he]
    simp [he, hp, hc]
  · rw [if_neg he]
    exact ⟨rfl, fun _ => rfl⟩

theorem part_modifyAll {change : α → α}
    (h : ∀ r ∈ t.rows, p r.1 (change r.2) = p r.1 r.2 ∧ (p r.1 r.2 = true → change r.2 = r.2)) :
    (t.modifyAll change).part p = t.part p :=
  part_map fun r hr => ⟨(h r hr).1, fun hp => Prod.ext rfl ((h r hr).2 hp)⟩

theorem part_keep (h : ∀ r ∈ t.rows, p r.1 r.2 = true → q r.1 r.2 = true) :
    (t.keep q).part p = t.part p := by
  simp only [part, keep, List.filter_filter]
  congr 1
  apply List.filter_congr
  intro r hr
  cases hp : p r.1 r.2 with
  | false => rfl
  | true => rw [h r hr hp]; rfl

theorem Ordered.get?_part (h : t.Ordered) (p : Int → α → Bool) (id : Int) :
    (t.part p).get? id = (t.get? id).filter (p id) := h.get?_keep p id

theorem Ordered.of_view {β : Type} (h : t.Ordered) {f : α → β} {id : Int} {a : α} {b : β}
    (hv : t.view f id = some b) (hm : (id, a) ∈ t.rows) : f a = b := by
  obtain ⟨c, hc, rfl⟩ := view_eq_some_iff.mp hv
  rw [h.get?_eq_some_iff.mpr hm] at hc
  rw [Option.some.inj hc]

end Table

namespace Store

def linksOf (s : Store) (run : Int) : List MonikerLink :=
  s.links.filter fun l => s.monikerRun? l.moniker == some run

/-- Whether a moniker of the run is linked to the symbol. -/
def linksTo (s : Store) (run symbol : Int) : Bool :=
  (s.linksOf run).any fun l => l.symbol == symbol

/-- The rows of one run and the symbols that its monikers are linked to. -/
def only (s : Store) (run : Int) : Store where
  runs := s.runs.part fun id _ => id == run
  documents := s.documents.part fun _ d => d.run == run
  hovers := s.hovers.part fun _ h => h.run == run
  packages := s.packages.part fun _ p => p.run == run
  monikers := s.monikers.part fun _ m => m.run == run
  symbols := s.symbols.part fun id _ => s.linksTo run id
  links := s.linksOf run
  resultSets := s.resultSets.part fun _ r => r.run == run
  ranges := s.ranges.part fun _ r => s.documentRun? r.document == some run
  definitionItems := s.definitionItems.part fun _ i => i.run == run
  referenceItems := s.referenceItems.part fun _ i => i.run == run
  occurrences := s.occurrences.filter fun o => o.run == run
  searchIndex := s.searchIndex.filter fun e => s.linksTo run e.symbol

variable {s t : Store} {run other : Int}

theorem linksTo_iff {symbol : Int} : s.linksTo run symbol = true ↔ s.LinkedFrom run symbol := by
  simp only [linksTo, linksOf, List.any_eq_true, List.mem_filter, beq_iff_eq, LinkedFrom]
  constructor
  · rintro ⟨l, ⟨hl, hm⟩, he⟩
    exact ⟨l, hl, he, hm⟩
  · rintro ⟨l, hl, he, hm⟩
    exact ⟨l, ⟨hl, hm⟩, he⟩

/-- A change that leaves every table of the portion of a run as it is. -/
structure Spares (run : Int) (s t : Store) : Prop where
  runs : (t.only run).runs = (s.only run).runs
  documents : (t.only run).documents = (s.only run).documents
  hovers : (t.only run).hovers = (s.only run).hovers
  packages : (t.only run).packages = (s.only run).packages
  monikers : (t.only run).monikers = (s.only run).monikers
  symbols : t.symbols.part (fun id _ => s.linksTo run id) =
    s.symbols.part fun id _ => s.linksTo run id
  links : t.linksOf run = s.linksOf run
  resultSets : (t.only run).resultSets = (s.only run).resultSets
  ranges : (t.only run).ranges = (s.only run).ranges
  definitionItems : (t.only run).definitionItems = (s.only run).definitionItems
  referenceItems : (t.only run).referenceItems = (s.only run).referenceItems
  occurrences : (t.only run).occurrences = (s.only run).occurrences
  searchIndex : t.searchIndex.filter (fun e => s.linksTo run e.symbol) =
    s.searchIndex.filter fun e => s.linksTo run e.symbol

theorem Spares.refl (run : Int) (s : Store) : Spares run s s :=
  ⟨rfl, rfl, rfl, rfl, rfl, rfl, rfl, rfl, rfl, rfl, rfl, rfl, rfl⟩

theorem Spares.only (h : Spares run s t) : t.only run = s.only run := by
  have hl : (t.only run).links = (s.only run).links := h.links
  have hto : t.linksTo run = s.linksTo run := by
    funext id
    simp only [linksTo, h.links]
  have hs : (t.only run).symbols = (s.only run).symbols := by
    simp only [Store.only, hto, h.symbols]
  have hi : (t.only run).searchIndex = (s.only run).searchIndex := by
    simp only [Store.only, hto, h.searchIndex]
  calc t.only run
      = ⟨(t.only run).runs, (t.only run).documents, (t.only run).hovers, (t.only run).packages,
          (t.only run).monikers, (t.only run).symbols, (t.only run).links,
          (t.only run).resultSets, (t.only run).ranges, (t.only run).definitionItems,
          (t.only run).referenceItems, (t.only run).occurrences, (t.only run).searchIndex⟩ := rfl
    _ = s.only run := by
        rw [h.runs, h.documents, h.hovers, h.packages, h.monikers, hs, hl, h.resultSets, h.ranges,
          h.definitionItems, h.referenceItems, h.occurrences, hi]

theorem beq_other {α : Type} {t : Table α} (h : t.Ordered) {f : α → Int} {id : Int} {a : α}
    (hne : other ≠ run) (hv : t.view f id = some other) (hm : (id, a) ∈ t.rows) :
    (f a == run) = false := by
  rw [h.of_view hv hm]
  simpa using hne

theorem ranges_withDocument (h : s.Scoped) (uri : String) (languageId : Option String) :
    ((s.withDocument other uri languageId).only run).ranges = (s.only run).ranges :=
  Table.part_congr rfl fun r hr => by
    obtain ⟨k, hd, -⟩ := h.ranges r hr
    have hd' : (s.withDocument other uri languageId).documentRun? r.2.document = some k :=
      Table.view_insert hd
    rw [hd, hd']

theorem spares_withDocument (h : s.Scoped) (hne : other ≠ run) (uri : String)
    (languageId : Option String) : Spares run s (s.withDocument other uri languageId) :=
  { Spares.refl run s with
    documents := Table.part_insert (by simpa using hne)
    ranges := ranges_withDocument h uri languageId }

theorem linksTo_next (h : s.Scoped) : s.linksTo run (s.symbols.last + 1) = false := by
  rw [Bool.eq_false_iff]
  intro hl
  obtain ⟨l, hl, he, -⟩ := linksTo_iff.mp hl
  exact h.ordered.symbols.ne_next (h.links l hl).2 he

theorem linksOf_withMoniker (h : s.Scoped) (hne : other ≠ run) (scheme identifier : String)
    (kind : Option String) (package : Option Int) :
    (s.withMoniker other scheme identifier kind package).linksOf run = s.linksOf run := by
  have hn : (s.withMoniker other scheme identifier kind package).monikerRun?
      (s.monikers.last + 1) = some other :=
    Table.view_eq_some_iff.mpr ⟨_, h.ordered.monikers.get?_insert_next _, rfl⟩
  have hold : ∀ l ∈ s.links, (s.withMoniker other scheme identifier kind package).monikerRun?
      l.moniker = s.monikerRun? l.moniker := by
    intro l hl
    obtain ⟨m, hm⟩ := Table.has_iff.mp (h.links l hl).1
    have hv : s.monikerRun? l.moniker = some m.run := Table.view_eq_some_iff.mpr ⟨m, hm, rfl⟩
    rw [hv]
    exact Table.view_insert hv
  have hlinks : (s.withMoniker other scheme identifier kind package).links =
      s.links ++ [⟨s.monikers.last + 1, s.symbolFor scheme identifier⟩] := rfl
  unfold linksOf
  rw [hlinks, List.filter_append, List.filter_cons_of_neg (by simpa [hn] using hne),
    List.filter_nil, List.append_nil]
  exact List.filter_congr fun l hl => by rw [hold l hl]

theorem spares_withMoniker (h : s.Scoped) (hne : other ≠ run) (scheme identifier : String)
    (kind : Option String) (package : Option Int) :
    Spares run s (s.withMoniker other scheme identifier kind package) := by
  refine
    { Spares.refl run s with
      monikers := Table.part_insert (by simpa using hne)
      links := linksOf_withMoniker h hne scheme identifier kind package
      symbols := ?_
      searchIndex := ?_ }
  · simp only [withMoniker, withLink, withSymbol, withMonikerRow, symbolNamed?]
    split
    next => rfl
    next => exact Table.part_insert (linksTo_next h)
  · simp only [withMoniker, withLink, withSymbol, withMonikerRow, symbolNamed?]
    split
    next => rfl
    next => simp [linksTo_next h]

theorem spares_settingPackage (h : s.Scoped) (hne : other ≠ run) {moniker : Int}
    (hm : s.monikerRun? moniker = some other) (package : Int) :
    Spares run s (s.settingPackage moniker package) :=
  { Spares.refl run s with
    monikers := by
      have hf : ∀ a, (moniker, a) ∈ s.monikers.rows → (a.run == run) = false := fun _ ha =>
        beq_other h.ordered.monikers hne hm ha
      simp only [only, settingPackage]
      exact Table.part_modify fun a ha => ⟨hf a ha, hf a ha⟩
    links := List.filter_congr fun l _ => by
      simp only [settingPackage, monikerRun?]
      rw [Table.view_modify fun _ => by rfl] }

theorem spares_modifyResultSet (h : s.Scoped) (hne : other ≠ run) {id : Int}
    (hk : s.resultSetRun? id = some other) {change : ResultSet → ResultSet}
    (hc : ∀ r, (change r).run = r.run) :
    Spares run s { s with resultSets := s.resultSets.modify id change } :=
  { Spares.refl run s with
    resultSets := Table.part_modify fun a ha => by
      rw [hc]
      exact ⟨beq_other h.ordered.resultSets hne hk ha, beq_other h.ordered.resultSets hne hk ha⟩ }

theorem Write.spares (w : Write other s t) (h : s.Scoped) (hne : other ≠ run) :
    Spares run s t := by
  have hb : (other == run) = false := by simpa using hne
  cases w with
  | describing projectRoot lsifVersion =>
    refine { Spares.refl run s with runs := ?_ }
    simp only [only, Store.describing]
    exact Table.part_modify fun _ _ => ⟨hb, hb⟩
  | document uri languageId => exact spares_withDocument h hne uri languageId
  | hover contents => exact { Spares.refl run s with hovers := Table.part_insert hb }
  | package name version manager =>
    exact { Spares.refl run s with packages := Table.part_insert hb }
  | moniker scheme identifier kind hp => exact spares_withMoniker h hne scheme identifier kind _
  | resultSet => exact { Spares.refl run s with resultSets := Table.part_insert hb }
  | range span hd hk =>
    refine { Spares.refl run s with ranges := Table.part_insert ?_ }
    change (s.documentRun? _ == some run) = false
    simpa [hd] using hne
  | definition bucket hi =>
    exact { Spares.refl run s with definitionItems := Table.part_insert hb }
  | reference bucket isDefinition hi =>
    exact { Spares.refl run s with referenceItems := Table.part_insert hb }
  | settingBucket kind bucket hk =>
    exact spares_modifyResultSet h hne hk fun r => (setBucket_other r bucket kind).1
  | settingHover hk hh => exact spares_modifyResultSet h hne hk fun _ => rfl
  | settingMoniker hk hm => exact spares_modifyResultSet h hne hk fun _ => rfl
  | settingPackage hm hp => exact spares_settingPackage h hne hm _
  | @settingResultSet document range resultSet hi hk =>
    have hf : ∀ a, (range, a) ∈ s.ranges.rows →
        (s.documentRun? a.document == some run) = false := by
      intro a ha
      rw [h.ordered.ranges.of_view hi.ofDocument ha, hi.ofRun]
      simpa using hne
    refine { Spares.refl run s with ranges := ?_ }
    simp only [only, Store.settingResultSet]
    exact Table.part_modify fun a ha => ⟨hf a ha, hf a ha⟩

theorem spares_withRun (hr : s.runs.last + 1 ≠ run) (about : RunMeta) (createdAt : Int) :
    Spares run s (s.withRun about createdAt) :=
  { Spares.refl run s with
    runs := Table.part_insert (by simpa using hr) }

theorem filter_foldl_of_none {found there : List Occurrence} {p : Occurrence → Bool}
    (h : ∀ o ∈ found, p o = false) :
    (found.foldl addOccurrence there).filter p = there.filter p := by
  refine List.foldlRecOn (motive := fun list : List Occurrence => list.filter p = there.filter p)
    found addOccurrence rfl fun list hl o ho => ?_
  unfold addOccurrence
  split
  next => exact hl
  next => simp [h o ho, hl]

theorem spares_withPass (h : s.Scoped) (hne : other ≠ run) (pass : Pass) :
    Spares run s (s.withPass other pass) :=
  { Spares.refl run s with
    occurrences := filter_foldl_of_none fun o ho => by
      rw [(found_inRun h ho).1]
      simpa using hne }

theorem only_derived (h : s.Scoped) (hne : other ≠ run) :
    (s.derived other).only run = s.only run := by
  have h₁ := (extends_withPass h other .definitions).scoped h
  have h₂ := (extends_withPass h₁ other .references).scoped h₁
  have h₃ := (extends_withPass h₂ other .implementations).scoped h₂
  unfold derived
  rw [(spares_withPass h₃ hne .types).only, (spares_withPass h₂ hne .implementations).only,
    (spares_withPass h₁ hne .references).only, (spares_withPass h hne .definitions).only]

theorem spares_withoutOccurrences (hne : other ≠ run) :
    Spares run s (s.withoutOccurrences other) :=
  { Spares.refl run s with
    occurrences := by
      simp only [only, withoutOccurrences, List.filter_filter]
      refine List.filter_congr fun o _ => ?_
      by_cases he : o.run = run
      · simp [he, hne.symm]
      · simp [he] }

theorem cut_of_kept {view : Int → Option Int} {loses : Int → Bool} {link : Option Int}
    (hl : ∀ k, loses k = true ↔ view k = some other) (hne : other ≠ run)
    (h : ∀ k, link = some k → view k = some run) : cut loses link = link := by
  cases link with
  | none => rfl
  | some k =>
    refine Option.filter_eq_some_iff.mpr ⟨rfl, ?_⟩
    have hn : loses k ≠ true := fun he =>
      hne (Option.some.inj ((hl k).mp he |>.symm.trans (h k rfl)))
    simpa using hn

theorem linksOf_withoutRun (h : s.Scoped) (hne : other ≠ run) :
    (s.withoutRun other).linksOf run = s.linksOf run := by
  have hm : ∀ l : MonikerLink, (s.withoutRun other).monikerRun? l.moniker = some run ↔
      s.monikerRun? l.moniker = some run := fun l =>
    (monikerRun?_withoutRun h.ordered).trans (and_iff_left hne.symm)
  simp only [linksOf]
  simp only [withoutRun, List.filter_filter]
  refine List.filter_congr fun l _ => ?_
  rw [Bool.eq_iff_iff, Bool.and_eq_true, beq_iff_eq, beq_iff_eq]
  refine (and_congr_left fun _ => hm l).trans (and_iff_left_of_imp fun he => ?_)
  have hn : s.losesMoniker other l.moniker ≠ true := fun hl =>
    hne (Option.some.inj ((losesMoniker_iff.mp hl).symm.trans he))
  simpa using hn

theorem part_keep_run {α : Type} {t : Table α} (f : α → Int) (hne : other ≠ run) :
    (t.keep fun _ a => f a != other).part (fun _ a => f a == run) = t.part fun _ a => f a == run :=
  Table.part_keep fun r _ hr => by
    rw [beq_iff_eq.mp hr]
    simpa using hne.symm

theorem InRun.not_lost {place document range : Int} (h : s.InRun place document range)
    (hne : other ≠ run) (hp : (place == run) = true) :
    (!(place == other || s.losesDocument other document || s.losesRange other range)) = true := by
  have hn : ¬ (place == other || s.losesDocument other document || s.losesRange other range) =
      true := fun hl => hne ((h.loses_iff.mp hl).symm.trans (beq_iff_eq.mp hp))
  simpa only [Bool.not_eq_true'] using Bool.eq_false_iff.mpr hn

theorem ranges_withoutRun (h : s.Scoped) (hne : other ≠ run) :
    ((s.withoutRun other).only run).ranges = (s.only run).ranges := by
  have hd : ∀ id, (s.withoutRun other).documentRun? id = some run ↔
      s.documentRun? id = some run := fun id =>
    (documentRun?_withoutRun h.ordered).trans (and_iff_left hne.symm)
  have hp : (fun (_ : Int) (r : Range) =>
        (s.withoutRun other).documentRun? r.document == some run) =
      fun _ r => s.documentRun? r.document == some run := by
    funext _ r
    rw [Bool.eq_iff_iff, beq_iff_eq, beq_iff_eq]
    exact hd r.document
  simp only [only, hp]
  simp only [withoutRun]
  rw [Table.part_modifyAll, Table.part_keep]
  · intro r _ hr
    have hn : s.losesDocument other r.2.document ≠ true := fun hl =>
      hne (Option.some.inj ((losesDocument_iff.mp hl).symm.trans (beq_iff_eq.mp hr)))
    simpa using hn
  · refine fun r hr => ⟨rfl, fun hr' => ?_⟩
    obtain ⟨k, hk, hs⟩ := h.ranges r ((Table.mem_rows_keep _ _ _).mp hr).1
    cases Option.some.inj (hk.symm.trans (beq_iff_eq.mp hr'))
    rw [cut_of_kept (fun _ => losesResultSet_iff) hne hs]

/-- Taking out another run leaves the portion, because nothing in it names what goes. -/
theorem spares_withoutRun (h : s.Scoped) (hne : other ≠ run) :
    Spares run s (s.withoutRun other) :=
  { Spares.refl run s with
    runs := by
      simp only [only, withoutRun]
      refine Table.part_keep fun r _ hr => ?_
      rw [beq_iff_eq.mp hr]
      simpa using hne.symm
    documents := part_keep_run Document.run hne
    hovers := part_keep_run Hover.run hne
    packages := part_keep_run Package.run hne
    monikers := by
      simp only [only, withoutRun]
      rw [Table.part_modifyAll, part_keep_run Moniker.run hne]
      refine fun r hr => ⟨rfl, fun hr' => ?_⟩
      have hp := h.packageOf r ((Table.mem_rows_keep _ _ _).mp hr).1
      rw [beq_iff_eq.mp hr'] at hp
      rw [cut_of_kept (fun _ => losesPackage_iff) hne hp]
    links := linksOf_withoutRun h hne
    resultSets := by
      simp only [only, withoutRun]
      rw [Table.part_modifyAll, part_keep_run ResultSet.run hne]
      refine fun r hr => ⟨rfl, fun hr' => ?_⟩
      have hh := h.hoverOf r ((Table.mem_rows_keep _ _ _).mp hr).1
      have hm := h.monikerOf r ((Table.mem_rows_keep _ _ _).mp hr).1
      rw [beq_iff_eq.mp hr'] at hh hm
      rw [cut_of_kept (fun _ => losesHover_iff) hne hh,
        cut_of_kept (fun _ => losesMoniker_iff) hne hm]
    ranges := ranges_withoutRun h hne
    definitionItems := by
      simp only [only, withoutRun]
      exact Table.part_keep fun r hr hp => (h.definitionItems r hr).not_lost hne hp
    referenceItems := by
      simp only [only, withoutRun]
      exact Table.part_keep fun r hr hp => (h.referenceItems r hr).not_lost hne hp
    occurrences := by
      simp only [only, withoutRun, List.filter_filter]
      refine List.filter_congr fun o ho => ?_
      cases hp : o.run == run with
      | false => rfl
      | true => exact (h.occurrences o ho).1.not_lost hne hp }

theorem isOrphan_of_linksTo {symbol : Int} (h : s.linksTo run symbol = true) :
    s.isOrphan symbol = false := by
  obtain ⟨l, hl, rfl, -⟩ := linksTo_iff.mp h
  simp [isOrphan, linked_of_link hl]

theorem spares_pruned (h : s.Scoped) : Spares run s s.pruned :=
  { Spares.refl run s with
    symbols := by
      simp only [pruned]
      refine Table.part_keep fun r _ hr => ?_
      obtain ⟨l, hl, he, -⟩ := linksTo_iff.mp hr
      rw [← he]
      exact linked_of_link hl
    occurrences := by
      simp only [only, pruned, List.filter_filter]
      refine List.filter_congr fun o ho => ?_
      cases hp : o.run == run with
      | false => rfl
      | true =>
        have hl := (h.occurrences o ho).2
        rw [beq_iff_eq.mp hp] at hl
        simp [isOrphan_of_linksTo (linksTo_iff.mpr hl)]
    searchIndex := by
      simp only [pruned, List.filter_filter]
      refine List.filter_congr fun e _ => ?_
      cases hp : s.linksTo run e.symbol with
      | false => rfl
      | true => simp [isOrphan_of_linksTo hp] }

end Store

end SymbolAtlas
