import Mathlib.Data.List.Nodup
import SymbolAtlas.Proofs.Isolation

namespace SymbolAtlas

def Moniker.name (m : Moniker) : String × String := (m.scheme, m.identifier)

def Symbol.name (x : Symbol) : String × String := (x.scheme, x.identifier)

/-- What the search index holds of a symbol. -/
def Symbol.entry (id : Int) (x : Symbol) : IndexEntry := ⟨id, x.qualifiedName, x.identifier⟩

namespace Store

variable {s t : Store}

def symbolNames (s : Store) : List (String × String) := s.symbols.rows.map fun r => r.2.name

/-- The search index holds the names of all symbols. -/
def Indexed (s : Store) : Prop := s.searchIndex = s.symbols.rows.map fun r => r.2.entry r.1

/-- Links go in the order of the monikers and to the symbols of their names; no two symbols have
one name, and the search index follows the symbols. -/
structure Catalogued (s : Store) : Prop where
  links : s.links.map MonikerLink.moniker = s.monikers.rows.map Prod.fst
  names : ∀ l ∈ s.links,
    s.symbols.view Symbol.name l.symbol = s.monikers.view Moniker.name l.moniker
  distinct : s.symbolNames.Nodup
  qualified : ∀ r ∈ s.symbols.rows, r.2.qualifiedName = qualifiedName r.2.identifier
  index : s.searchIndex = s.symbols.rows.map fun r => r.2.entry r.1

/-- Every symbol has a moniker. -/
def Attached (s : Store) : Prop := ∀ r ∈ s.symbols.rows, s.isLinked r.1 = true

theorem isLinked_iff {symbol : Int} :
    s.isLinked symbol = true ↔ ∃ l ∈ s.links, l.symbol = symbol := by
  simp [isLinked]

theorem symbolNamed?_some {scheme identifier : String} {r : Int × Symbol}
    (h : s.symbolNamed? scheme identifier = some r) :
    r ∈ s.symbols.rows ∧ r.2.name = (scheme, identifier) := by
  refine ⟨List.mem_of_find?_eq_some h, ?_⟩
  have hn := List.find?_some h
  rw [Bool.and_eq_true, beq_iff_eq, beq_iff_eq] at hn
  exact Prod.ext hn.1 hn.2

theorem symbolNamed?_eq_none_iff {scheme identifier : String} :
    s.symbolNamed? scheme identifier = none ↔ (scheme, identifier) ∉ s.symbolNames := by
  simp only [symbolNamed?, List.find?_eq_none, symbolNames, List.mem_map, Bool.and_eq_true,
    beq_iff_eq, not_exists, not_and, Symbol.name, Prod.mk.injEq]

theorem symbols_withMoniker (run : Int) (scheme identifier : String) (kind : Option String)
    (package : Option Int) :
    (s.withMoniker run scheme identifier kind package).symbols =
      match s.symbolNamed? scheme identifier with
      | some _ => s.symbols.skip
      | none => s.symbols.insert ⟨scheme, identifier, qualifiedName identifier, kind⟩ := rfl

theorem names_withMoniker (h : s.Scoped) (hc : s.Catalogued) (run : Int)
    (scheme identifier : String) (kind : Option String) (package : Option Int) {l : MonikerLink}
    (hl : l ∈ (s.withMoniker run scheme identifier kind package).links) :
    (s.withMoniker run scheme identifier kind package).symbols.view Symbol.name l.symbol =
      (s.withMoniker run scheme identifier kind package).monikers.view Moniker.name l.moniker := by
  rcases List.mem_append.mp hl with ho | hn
  · -- An old link has both of its ends where they were.
    obtain ⟨hm, hx⟩ := h.links l ho
    obtain ⟨m, hm⟩ := Table.has_iff.mp hm
    obtain ⟨x, hx⟩ := Table.has_iff.mp hx
    have hvx : s.symbols.view Symbol.name l.symbol = some x.name :=
      Table.view_eq_some_iff.mpr ⟨x, hx, rfl⟩
    have hvm : s.monikers.view Moniker.name l.moniker = some x.name :=
      (hc.names l ho).symm.trans hvx
    have hm' : (s.withMoniker run scheme identifier kind package).monikers.view Moniker.name
        l.moniker = some x.name := Table.view_insert hvm
    rw [hm', symbols_withMoniker]
    split
    next => exact hvx
    next => exact Table.view_insert hvx
  · cases List.mem_singleton.mp hn
    have hm : (s.withMoniker run scheme identifier kind package).monikers.view Moniker.name
        (s.monikers.last + 1) = some (scheme, identifier) :=
      h.ordered.monikers.view_insert_next _
    rw [hm, symbols_withMoniker]
    unfold symbolFor
    cases hs : s.symbolNamed? scheme identifier with
    | none => exact h.ordered.symbols.view_insert_next _
    | some r =>
      obtain ⟨hr, hn⟩ := symbolNamed?_some hs
      exact Table.view_eq_some_iff.mpr ⟨r.2, h.ordered.symbols.get?_eq_some_iff.mpr hr, hn⟩

theorem catalogued_withMoniker (h : s.Scoped) (hc : s.Catalogued) (run : Int)
    (scheme identifier : String) (kind : Option String) (package : Option Int) :
    (s.withMoniker run scheme identifier kind package).Catalogued where
  links := by
    have hm : (s.withMoniker run scheme identifier kind package).monikers =
        s.monikers.insert ⟨run, scheme, identifier, kind, package⟩ := rfl
    have hl : (s.withMoniker run scheme identifier kind package).links =
        s.links ++ [⟨s.monikers.last + 1, s.symbolFor scheme identifier⟩] := rfl
    rw [hm, hl, Table.rows_insert, List.map_append, List.map_append, hc.links]
    rfl
  names _ hl := names_withMoniker h hc run scheme identifier kind package hl
  distinct := by
    unfold symbolNames
    rw [symbols_withMoniker]
    split
    next => exact hc.distinct
    next hn =>
      rw [Table.rows_insert, List.map_append, List.nodup_append]
      refine ⟨hc.distinct, List.nodup_singleton _, ?_⟩
      rintro name ho new hnew rfl
      rw [List.map_singleton, List.mem_singleton] at hnew
      rw [hnew] at ho
      exact symbolNamed?_eq_none_iff.mp hn ho
  qualified r hr := by
    rw [symbols_withMoniker] at hr
    split at hr
    next => exact hc.qualified r hr
    next =>
      rcases Table.mem_insert_iff.mp hr with ho | hn
      · exact hc.qualified r ho
      · rw [hn]
  index := by
    have hi : (s.withMoniker run scheme identifier kind package).searchIndex =
        match s.symbolNamed? scheme identifier with
        | some _ => s.searchIndex
        | none => s.searchIndex ++ [⟨s.symbols.last + 1, qualifiedName identifier, identifier⟩] :=
      rfl
    rw [symbols_withMoniker, hi]
    split
    next => exact hc.index
    next =>
      rw [Table.rows_insert, List.map_append, hc.index]
      rfl

theorem attached_withMoniker (ha : s.Attached) (run : Int) (scheme identifier : String)
    (kind : Option String) (package : Option Int) :
    (s.withMoniker run scheme identifier kind package).Attached := by
  intro r hr
  have hold : r ∈ s.symbols.rows →
      (s.withMoniker run scheme identifier kind package).isLinked r.1 = true := by
    intro ho
    obtain ⟨l, hl, he⟩ := isLinked_iff.mp (ha r ho)
    exact isLinked_iff.mpr ⟨l, List.mem_append_left _ hl, he⟩
  rw [symbols_withMoniker] at hr
  split at hr
  next => exact hold hr
  next hn =>
    rcases Table.mem_insert_iff.mp hr with ho | he
    · exact hold ho
    · refine isLinked_iff.mpr ⟨_, List.mem_append_right _ (List.mem_singleton_self _), ?_⟩
      rw [he]
      simp [symbolFor, hn]

theorem catalogued_settingPackage (hc : s.Catalogued) (moniker package : Int) :
    (s.settingPackage moniker package).Catalogued :=
  { hc with
    links := by
      rw [show (s.settingPackage moniker package).links = s.links from rfl, hc.links]
      simp only [settingPackage, Table.modify, List.map_map]
      refine List.map_congr_left fun r _ => ?_
      simp only [Function.comp_apply]
      split <;> rfl
    names := fun l hl => by
      simp only [settingPackage]
      rw [Table.view_modify fun _ => by rfl]
      exact hc.names l hl }

theorem Write.catalogued {run : Int} (w : Write run s t) (h : s.Scoped)
    (hc : s.Catalogued ∧ s.Attached) : t.Catalogued ∧ t.Attached := by
  obtain ⟨hc, ha⟩ := hc
  cases w with
  | moniker scheme identifier kind hp =>
    exact ⟨catalogued_withMoniker h hc run scheme identifier kind _,
      attached_withMoniker ha run scheme identifier kind _⟩
  | settingPackage hm hp => exact ⟨catalogued_settingPackage hc _ _, ha⟩
  | describing projectRoot lsifVersion => exact ⟨{ hc with }, ha⟩
  | document uri languageId => exact ⟨{ hc with }, ha⟩
  | hover contents => exact ⟨{ hc with }, ha⟩
  | package name version manager => exact ⟨{ hc with }, ha⟩
  | resultSet => exact ⟨{ hc with }, ha⟩
  | range span hd hk => exact ⟨{ hc with }, ha⟩
  | definition bucket hi => exact ⟨{ hc with }, ha⟩
  | reference bucket isDefinition hi => exact ⟨{ hc with }, ha⟩
  | settingBucket kind bucket hk => exact ⟨{ hc with }, ha⟩
  | settingHover hk hh => exact ⟨{ hc with }, ha⟩
  | settingMoniker hk hm => exact ⟨{ hc with }, ha⟩
  | settingResultSet hi hk => exact ⟨{ hc with }, ha⟩

theorem losesMoniker_of_mem (h : s.Ordered) {run : Int} {r : Int × Moniker}
    (hr : r ∈ s.monikers.rows) : s.losesMoniker run r.1 = (r.2.run == run) := by
  have hv : s.monikerRun? r.1 = some r.2.run :=
    Table.view_eq_some_iff.mpr ⟨r.2, h.monikers.get?_eq_some_iff.mpr hr, rfl⟩
  rw [Bool.eq_iff_iff, losesMoniker_iff, hv, Option.some.injEq, beq_iff_eq]

theorem catalogued_withoutRun (h : s.Scoped) (hc : s.Catalogued) (run : Int) :
    (s.withoutRun run).Catalogued :=
  { hc with
    links := by
      have hl : ((s.withoutRun run).links.map MonikerLink.moniker) =
          (s.links.map MonikerLink.moniker).filter fun id => !s.losesMoniker run id := by
        simp only [withoutRun, List.filter_map]
        rfl
      rw [hl, hc.links]
      simp only [withoutRun, Table.modifyAll, Table.keep, List.map_map, List.filter_map]
      have hf : s.monikers.rows.filter ((fun id => !s.losesMoniker run id) ∘ Prod.fst) =
          s.monikers.rows.filter fun r => r.2.run != run :=
        List.filter_congr fun r hr => by
          simp only [Function.comp_apply, losesMoniker_of_mem h.ordered hr, bne]
      rw [hf]
      rfl
    names := fun l hl => by
      obtain ⟨hm, hn⟩ := List.mem_filter.mp hl
      obtain ⟨m, hg⟩ := Table.has_iff.mp (h.links l hm).1
      have hk : (m.run != run) = true := by
        rw [losesMoniker_of_mem h.ordered (Table.mem_of_get? hg)] at hn
        exact hn
      have hv : (s.withoutRun run).monikers.view Moniker.name l.moniker = some m.name := by
        simp only [withoutRun]
        rw [Table.view_modifyAll fun _ => by rfl, h.ordered.monikers.view_keep]
        exact ⟨m, hg, hk, rfl⟩
      rw [hv]
      exact (hc.names l hm).trans (Table.view_eq_some_iff.mpr ⟨m, hg, rfl⟩) }

theorem catalogued_pruned (h : s.Scoped) (hc : s.Catalogued) : s.pruned.Catalogued where
  links := hc.links
  names l hl := by
    have hk : s.isLinked l.symbol = true := linked_of_link hl
    have hg : s.pruned.symbols.get? l.symbol = s.symbols.get? l.symbol := by
      rw [get?_symbols_pruned h.ordered, if_pos hk]
    have hv : s.pruned.symbols.view Symbol.name l.symbol = s.symbols.view Symbol.name l.symbol := by
      simp only [Table.view, hg]
    exact hv.trans (hc.names l hl)
  distinct := hc.distinct.sublist (List.filter_sublist.map _)
  qualified r hr := hc.qualified r ((Table.mem_rows_keep _ _ _).mp hr).1
  index := by
    simp only [pruned, Table.keep, hc.index, List.filter_map]
    congr 1
    refine List.filter_congr fun r hr => ?_
    have hh : s.symbols.has r.1 = true :=
      Table.has_iff.mpr ⟨r.2, h.ordered.symbols.get?_eq_some_iff.mpr hr⟩
    simp [Symbol.entry, isOrphan, hh]

theorem attached_pruned : s.pruned.Attached := fun _ hr => ((Table.mem_rows_keep _ _ _).mp hr).2

theorem catalogued_occurrences (hc : s.Catalogued ∧ s.Attached) (occurrences : List Occurrence) :
    ({ s with occurrences := occurrences } : Store).Catalogued ∧
      ({ s with occurrences := occurrences } : Store).Attached := ⟨{ hc.1 with }, hc.2⟩

theorem catalogued_derived (hc : s.Catalogued ∧ s.Attached) (run : Int) :
    (s.derived run).Catalogued ∧ (s.derived run).Attached := by
  rw [derived_eq]
  exact catalogued_occurrences hc _

theorem catalogued_empty : Store.empty.Catalogued := by
  constructor <;> simp [Store.empty, symbolNames]

end Store

theorem Operation.Makes.catalogued {op : Operation} {s t : Store} (m : op.Makes s t)
    (h : s.Scoped) (hc : s.Catalogued ∧ s.Attached) : t.Catalogued ∧ t.Attached := by
  have hdump : ∀ about createdAt stream,
      (s.withDump about createdAt stream).Catalogued ∧
        (s.withDump about createdAt stream).Attached := fun about createdAt stream =>
    withDump_keeps (motive := fun s => s.Catalogued ∧ s.Attached) h about createdAt stream
      ⟨{ hc.1 with }, hc.2⟩ fun ha w hk => w.catalogued ha hk
  cases m with
  | stored settings about stream createdAt => exact hdump about createdAt stream
  | ingested settings about stream createdAt =>
    exact Store.catalogued_derived (hdump about createdAt stream) _
  | derived run => exact Store.catalogued_derived hc run
  | rebuilt run =>
    have hw : (s.withoutOccurrences run).Catalogued ∧ (s.withoutOccurrences run).Attached :=
      Store.catalogued_occurrences hc _
    exact Store.catalogued_derived hw run
  | deleted run =>
    have hw := Store.catalogued_withoutRun h hc.1 run
    exact ⟨Store.catalogued_pruned (Store.scoped_withoutRun h run) hw, Store.attached_pruned⟩

theorem Reachable.catalogued {s : Store} (h : Reachable s) : s.Catalogued ∧ s.Attached :=
  h.keeps ⟨Store.catalogued_empty, fun _ hr => by cases hr⟩ fun hs m hc => m.catalogued hs hc

namespace Store

variable {s : Store}

/-- The names of the symbols are the names of the monikers. -/
theorem mem_symbolNames_iff (h : s.Scoped) (hc : s.Catalogued) (ha : s.Attached)
    {name : String × String} :
    name ∈ s.symbolNames ↔ ∃ r ∈ s.monikers.rows, r.2.name = name := by
  constructor
  · intro hn
    obtain ⟨r, hr, rfl⟩ := List.mem_map.mp hn
    obtain ⟨l, hl, he⟩ := isLinked_iff.mp (ha r hr)
    have hx : s.symbols.view Symbol.name l.symbol = some r.2.name :=
      Table.view_eq_some_iff.mpr ⟨r.2, he ▸ h.ordered.symbols.get?_eq_some_iff.mpr hr, rfl⟩
    rw [hc.names l hl] at hx
    obtain ⟨m, hm, hn⟩ := Table.view_eq_some_iff.mp hx
    exact ⟨(l.moniker, m), Table.mem_of_get? hm, hn⟩
  · rintro ⟨r, hr, rfl⟩
    have hid : r.1 ∈ s.links.map MonikerLink.moniker := by
      rw [hc.links]
      exact List.mem_map_of_mem hr
    obtain ⟨l, hl, he⟩ := List.mem_map.mp hid
    have hm : s.monikers.view Moniker.name l.moniker = some r.2.name :=
      Table.view_eq_some_iff.mpr ⟨r.2, he ▸ h.ordered.monikers.get?_eq_some_iff.mpr hr, rfl⟩
    rw [← hc.names l hl] at hm
    obtain ⟨x, hx, hn⟩ := Table.view_eq_some_iff.mp hm
    exact List.mem_map.mpr ⟨(l.symbol, x), Table.mem_of_get? hx, hn⟩

theorem count_symbols_named (h : s.Scoped) (hc : s.Catalogued) (ha : s.Attached)
    (name : String × String) :
    s.symbols.count (fun x => x.name == name) =
      if s.monikers.any (fun m => s.runs.has m.run && m.name == name) then 1 else 0 := by
  have hcount : s.symbols.count (fun x => x.name == name) = s.symbolNames.count name := by
    rw [symbolNames, List.count, List.countP_map]
    rfl
  have hany : (s.monikers.any fun m => s.runs.has m.run && m.name == name) = true ↔
      name ∈ s.symbolNames := by
    rw [mem_symbolNames_iff h hc ha]
    simp only [Table.any, List.any_eq_true, Bool.and_eq_true, beq_iff_eq]
    exact exists_congr fun r => and_congr_right fun hr => and_iff_right (h.monikers r hr)
  rw [hcount, hc.distinct.count]
  exact (if_congr hany rfl rfl).symm

theorem link_of_moniker (h : s.Scoped) (hc : s.Catalogued) {r : Int × Moniker}
    (hr : r ∈ s.monikers.rows) :
    ∃ id x, s.links.filter (fun l => l.moniker == r.1) = [⟨r.1, id⟩] ∧
      s.symbols.get? id = some x ∧ x.name = r.2.name := by
  obtain ⟨l, hl⟩ := List.length_eq_one_iff.mp (h.monikerLink r hr)
  have hmem : l ∈ s.links.filter fun l => l.moniker == r.1 := by
    rw [hl]
    exact List.mem_singleton_self l
  obtain ⟨hin, he⟩ := List.mem_filter.mp hmem
  have he : l.moniker = r.1 := beq_iff_eq.mp he
  have hm : s.monikers.view Moniker.name l.moniker = some r.2.name :=
    Table.view_eq_some_iff.mpr ⟨r.2, he ▸ h.ordered.monikers.get?_eq_some_iff.mpr hr, rfl⟩
  obtain ⟨x, hx, hn⟩ := Table.view_eq_some_iff.mp ((hc.names l hin).trans hm)
  refine ⟨l.symbol, x, ?_, hx, hn⟩
  rw [hl, ← he]

theorem matching_eq (ho : s.symbols.Ordered) (hi : s.Indexed) (run : Int) (terms : List String) :
    s.matching run terms =
      (s.symbols.rows.filterMap fun r =>
        if matchesAny (phrases terms) [r.2.qualifiedName, r.2.identifier] then
          some ⟨r.1, r.2, s.occurrences.countP fun o => o.run == run && o.symbol == r.1⟩
        else none).mergeSort SymbolMatch.le := by
  unfold matching
  dsimp only
  rw [hi, List.filterMap_map]
  congr 1
  refine List.filterMap_congr fun r hr => ?_
  simp only [Function.comp_apply, Symbol.entry, ho.get?_eq_some_iff.mpr hr, Option.map_some]

theorem mem_matching_indexed (ho : s.symbols.Ordered) (hi : s.Indexed) {run : Int}
    {terms : List String} {m : SymbolMatch} :
    m ∈ s.matching run terms ↔ s.symbols.get? m.id = some m.symbol ∧
      matchesAny (phrases terms) [m.symbol.qualifiedName, m.symbol.identifier] = true ∧
      m.occurrenceCount = s.occurrences.countP fun o => o.run == run && o.symbol == m.id := by
  rw [matching_eq ho hi, List.mem_mergeSort, List.mem_filterMap]
  constructor
  · rintro ⟨r, hr, he⟩
    split at he
    next hm =>
      cases Option.some.inj he
      exact ⟨ho.get?_eq_some_iff.mpr hr, hm, rfl⟩
    next => simp at he
  · rintro ⟨hg, hm, hn⟩
    refine ⟨(m.id, m.symbol), Table.mem_of_get? hg, ?_⟩
    rw [if_pos hm, ← hn]

theorem matching_indexed_once (ho : s.symbols.Ordered) (hi : s.Indexed) (run : Int)
    (terms : List String) : (s.matching run terms).Pairwise fun a b => a.id ≠ b.id := by
  rw [matching_eq ho hi]
  refine (List.Perm.pairwise_iff (fun hab => hab.symm) (List.mergeSort_perm _ _)).mpr ?_
  refine ho.increasing.filterMap _ fun a b hlt m hm m' hm' => ?_
  split at hm
  next =>
    split at hm'
    next =>
      cases Option.some.inj hm
      cases Option.some.inj hm'
      exact Int.ne_of_lt hlt
    next => simp at hm'
  next => simp at hm

theorem mem_matching_catalogued (h : s.Scoped) (hc : s.Catalogued) {run : Int}
    {terms : List String} {m : SymbolMatch} :
    m ∈ s.matching run terms ↔ s.symbols.get? m.id = some m.symbol ∧
      matchesAny (phrases terms) [m.symbol.qualifiedName, m.symbol.identifier] = true ∧
      m.occurrenceCount = s.occurrences.countP fun o => o.run == run && o.symbol == m.id :=
  mem_matching_indexed h.ordered.symbols hc.index

theorem matching_once (h : s.Scoped) (hc : s.Catalogued) (run : Int) (terms : List String) :
    (s.matching run terms).Pairwise fun a b => a.id ≠ b.id :=
  matching_indexed_once h.ordered.symbols hc.index run terms

theorem takeLimit_sublist {α : Type} (limit : Nat) (list : List α) :
    (takeLimit limit list).Sublist list := by
  unfold takeLimit
  split
  next => exact List.take_sublist limit list
  next => exact List.Sublist.refl list

theorem mem_takeLimit {α : Type} {limit : Nat} {list : List α} {a : α} (h : a ∈ list) :
    a ∈ takeLimit limit list ∨ limit ≤ (takeLimit limit list).length := by
  unfold takeLimit
  split
  next =>
    by_cases hl : limit ≤ list.length
    · exact .inr (by rw [List.length_take]; omega)
    · exact .inl (by rwa [List.take_of_length_le (by omega)])
  next => exact .inl h

theorem searchByName_eq (settings : QuerySettings) (run : Int) (query : String)
    {limit : Option Nat} (h : limit ≠ some 0) :
    s.searchByName settings run query limit =
      .ok (takeLimit (settings.limitFor limit) (s.matching run (queryTerms query))) := by
  unfold searchByName
  rw [if_neg h]
  split
  next hq =>
    -- Without terms there are no phrases, so nothing matches.
    have hnone : s.matching run (queryTerms query) = [] := by
      simp [matching, hq, phrases, matchesAny]
    simp [hnone, takeLimit]
  next => rfl

end Store

/-- In every store that operations lead to there is one symbol for each name that a moniker of
some run has, and no other; every moniker is linked to the symbol of its name; and the search
index holds each symbol once under the names that it has, so that a search gives symbols of
monikers only and leaves out no match but for its limit. -/
theorem symbols_project_monikers {s : Store} (h : Reachable s) :
    (∀ scheme identifier, s.symbols.count (fun x => x.name == (scheme, identifier)) =
      if s.monikers.any (fun m => s.runs.has m.run && m.name == (scheme, identifier)) then 1
      else 0) ∧
    (∀ r ∈ s.monikers.rows, s.runs.has r.2.run = true ∧
      ∃ id x, s.links.filter (fun l => l.moniker == r.1) = [⟨r.1, id⟩] ∧
        s.symbols.get? id = some x ∧ x.scheme = r.2.scheme ∧ x.identifier = r.2.identifier) ∧
    (∀ r ∈ s.symbols.rows, r.2.qualifiedName = qualifiedName r.2.identifier) ∧
    s.searchIndex = s.symbols.rows.map (fun r => ⟨r.1, r.2.qualifiedName, r.2.identifier⟩) ∧
    ∀ settings run query limit, limit ≠ some 0 →
      ∃ found, s.searchByName settings run query limit = .ok found ∧
        found.Pairwise (fun a b => a.id ≠ b.id) ∧
        (∀ m ∈ found, s.symbols.get? m.id = some m.symbol ∧
          matchesAny (phrases (queryTerms query))
            [m.symbol.qualifiedName, m.symbol.identifier] = true ∧
          ∃ r ∈ s.monikers.rows, s.runs.has r.2.run = true ∧
            r.2.scheme = m.symbol.scheme ∧ r.2.identifier = m.symbol.identifier) ∧
        ∀ id x, s.symbols.get? id = some x →
          matchesAny (phrases (queryTerms query)) [x.qualifiedName, x.identifier] = true →
          (∃ m ∈ found, m.id = id ∧ m.symbol = x) ∨ settings.limitFor limit ≤ found.length := by
  have hs := h.scoped
  obtain ⟨hc, ha⟩ := h.catalogued
  refine ⟨fun scheme identifier => Store.count_symbols_named hs hc ha (scheme, identifier),
    fun r hr => ⟨hs.monikers r hr, ?_⟩, hc.qualified, hc.index, ?_⟩
  · obtain ⟨id, x, hl, hx, hn⟩ := Store.link_of_moniker hs hc hr
    exact ⟨id, x, hl, hx, congrArg Prod.fst hn, congrArg Prod.snd hn⟩
  intro settings run query limit hlimit
  refine ⟨_, Store.searchByName_eq settings run query hlimit, ?_, fun m hm => ?_,
    fun id x hx hmatch => ?_⟩
  · exact (Store.matching_once hs hc run _).sublist (Store.takeLimit_sublist _ _)
  · obtain ⟨hg, hmatch, -⟩ := (Store.mem_matching_catalogued hs hc).mp
      ((Store.takeLimit_sublist _ _).subset hm)
    have hname : m.symbol.name ∈ s.symbolNames :=
      List.mem_map.mpr ⟨(m.id, m.symbol), Table.mem_of_get? hg, rfl⟩
    obtain ⟨r, hr, hn⟩ := (Store.mem_symbolNames_iff hs hc ha).mp hname
    exact ⟨hg, hmatch, r, hr, hs.monikers r hr, congrArg Prod.fst hn, congrArg Prod.snd hn⟩
  · let m : SymbolMatch :=
      ⟨id, x, s.occurrences.countP fun o => o.run == run && o.symbol == id⟩
    have hm : m ∈ s.matching run (queryTerms query) :=
      (Store.mem_matching_catalogued hs hc).mpr ⟨hx, hmatch, rfl⟩
    exact (Store.mem_takeLimit hm).imp_left fun hin => ⟨m, hin, rfl, rfl⟩

/-- The symbol that is found in the sample has a moniker there. -/
theorem sample_symbol_has_moniker :
    let m : SymbolMatch := ⟨1, ⟨"npm", "a:f", "f", none⟩, 1⟩
    sampleStore.searchByName {} 1 "F" none = .ok [m] ∧
      ∃ r ∈ sampleStore.monikers.rows, sampleStore.runs.has r.2.run = true ∧
        r.2.scheme = m.symbol.scheme ∧ r.2.identifier = m.symbol.identifier := by
  intro m
  have hsearch : sampleStore.searchByName {} 1 "F" none = .ok [m] := by decide +kernel
  obtain ⟨-, -, -, -, search⟩ := symbols_project_monikers reachable_sample
  obtain ⟨found, hf, -, hsound, -⟩ := search {} 1 "F" none (by simp)
  have he : [m] = found := Except.ok.inj (hsearch.symm.trans hf)
  obtain ⟨-, -, hr⟩ := hsound m (he ▸ List.mem_singleton_self m)
  exact ⟨hsearch, hr⟩

end SymbolAtlas
