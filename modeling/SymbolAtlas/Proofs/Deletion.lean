import SymbolAtlas.Proofs.Retired
import SymbolAtlas.Proofs.Undo

namespace SymbolAtlas

/-- Nothing stands in the way of a transaction or of anything in it. -/
structure Access.Unhindered (access : Access) : Prop where
  begins : access.beginRefusal? false = none
  writes : access.writeRefusal? = none
  touches : ∀ table event s, access.fails table event s = none
  commits : ∀ s, access.commitFails s = none

theorem Access.permit_of_free {access : Access} {s : Store}
    (h : ∀ table event, access.fails table event s = none) (touches : List Touch) :
    access.permit s touches = .ok () := by
  induction touches with
  | nil => rfl
  | cons touch rest ih =>
    unfold Access.permit
    rw [h]
    exact ih

theorem Access.Unhindered.allows {access : Access} (h : access.Unhindered) (s : Store)
    (touches : List Touch) : Access.Allows { access with inTransaction := true } s touches := by
  refine ⟨h.writes, Access.permit_of_free ?_ touches⟩
  exact fun table event => h.touches table event s

namespace Store

variable {s : Store} {run : Int}

/-- Whether a moniker of a run other than the given one is linked to the symbol. -/
def linkedElsewhere (s : Store) (run symbol : Int) : Bool :=
  s.links.any fun l => l.symbol == symbol &&
    s.monikers.holds l.moniker fun m => m.run != run && s.runs.has m.run

/-- The rows of all runs but one, each as it is, and the symbols that their monikers are linked
to. -/
def others (s : Store) (run : Int) : Store :=
  { s with
    runs := s.runs.keep fun id _ => id != run
    documents := s.documents.keep fun _ d => d.run != run
    hovers := s.hovers.keep fun _ h => h.run != run
    packages := s.packages.keep fun _ p => p.run != run
    monikers := s.monikers.keep fun _ m => m.run != run
    symbols := s.symbols.keep fun id _ => s.linkedElsewhere run id
    links := s.links.filter fun l => s.monikerRun? l.moniker != some run
    resultSets := s.resultSets.keep fun _ r => r.run != run
    ranges := s.ranges.keep fun _ r => s.documentRun? r.document != some run
    definitionItems := s.definitionItems.keep fun _ i => i.run != run
    referenceItems := s.referenceItems.keep fun _ i => i.run != run
    occurrences := s.occurrences.filter fun o => o.run != run
    searchIndex := s.searchIndex.filter fun e => s.linkedElsewhere run e.symbol }

theorem cut_of_other {view : Int → Option Int} {loses : Int → Bool} {link : Option Int} {k : Int}
    (hl : ∀ id, loses id = true ↔ view id = some run) (hk : (k != run) = true)
    (h : ∀ id, link = some id → view id = some k) : cut loses link = link :=
  cut_of_kept hl (bne_iff_ne.mp hk).symm h

theorem monikers_withoutRun (h : s.Scoped) :
    (s.withoutRun run).monikers = s.monikers.keep fun _ m => m.run != run := by
  simp only [withoutRun]
  refine Table.modifyAll_eq_self fun r hr => ?_
  obtain ⟨hm, hn⟩ := (Table.mem_rows_keep _ _ _).mp hr
  rw [cut_of_other (fun _ => losesPackage_iff) hn (h.packageOf r hm)]

theorem resultSets_withoutRun (h : s.Scoped) :
    (s.withoutRun run).resultSets = s.resultSets.keep fun _ r => r.run != run := by
  simp only [withoutRun]
  refine Table.modifyAll_eq_self fun r hr => ?_
  obtain ⟨hm, hn⟩ := (Table.mem_rows_keep _ _ _).mp hr
  rw [cut_of_other (fun _ => losesHover_iff) hn (h.hoverOf r hm),
    cut_of_other (fun _ => losesMoniker_iff) hn (h.monikerOf r hm)]

theorem losesDocument_eq (s : Store) (run id : Int) :
    (!s.losesDocument run id) = (s.documentRun? id != some run) := by
  rw [Bool.eq_iff_iff, Bool.not_eq_true', Bool.eq_false_iff, bne_iff_ne]
  exact not_congr losesDocument_iff

theorem losesMoniker_eq (s : Store) (run id : Int) :
    (!s.losesMoniker run id) = (s.monikerRun? id != some run) := by
  rw [Bool.eq_iff_iff, Bool.not_eq_true', Bool.eq_false_iff, bne_iff_ne]
  exact not_congr losesMoniker_iff

theorem ranges_removed (h : s.Scoped) :
    (s.withoutRun run).ranges =
      s.ranges.keep fun _ r => s.documentRun? r.document != some run := by
  have hkeep : (s.ranges.keep fun _ r => !s.losesDocument run r.document) =
      s.ranges.keep fun _ r => s.documentRun? r.document != some run :=
    Table.keep_congr fun r _ => s.losesDocument_eq run r.2.document
  simp only [withoutRun, hkeep]
  refine Table.modifyAll_eq_self fun r hr => ?_
  obtain ⟨hm, hn⟩ := (Table.mem_rows_keep _ _ _).mp hr
  obtain ⟨k, hd, hk⟩ := h.ranges r hm
  have hne : (k != run) = true := by
    rw [hd, bne_iff_ne] at hn
    exact bne_iff_ne.mpr fun he => hn (congrArg some he)
  rw [cut_of_other (fun _ => losesResultSet_iff) hne hk]

theorem InRun.stays {place document range : Int} (h : s.InRun place document range) :
    (!(place == run || s.losesDocument run document || s.losesRange run range)) =
      (place != run) := by
  rw [Bool.eq_iff_iff, Bool.not_eq_true', Bool.eq_false_iff, bne_iff_ne]
  exact not_congr h.loses_iff

theorem isLinked_withoutRun (h : s.Scoped) (run symbol : Int) :
    (s.withoutRun run).isLinked symbol = s.linkedElsewhere run symbol := by
  rw [Bool.eq_iff_iff, isLinked_iff]
  simp only [linkedElsewhere, List.any_eq_true, Bool.and_eq_true, beq_iff_eq, Table.holds_iff]
  refine exists_congr fun l => ?_
  simp only [withoutRun, List.mem_filter, losesMoniker_eq, bne_iff_ne]
  constructor
  · rintro ⟨⟨hl, hn⟩, he⟩
    obtain ⟨m, hm⟩ := Table.has_iff.mp (h.links l hl).1
    have hv : s.monikerRun? l.moniker = some m.run := Table.view_eq_some_iff.mpr ⟨m, hm, rfl⟩
    exact ⟨hl, he, m, hm, fun hr => hn (hv.trans (congrArg some hr)),
      h.monikers _ (Table.mem_of_get? hm)⟩
  · rintro ⟨hl, he, m, hm, hn, -⟩
    have hv : s.monikerRun? l.moniker = some m.run := Table.view_eq_some_iff.mpr ⟨m, hm, rfl⟩
    exact ⟨⟨hl, fun hr => hn (Option.some.inj (hv.symm.trans hr))⟩, he⟩

theorem searchIndex_removed (h : s.Scoped) (hc : s.Catalogued) :
    (s.withoutRun run).pruned.searchIndex =
      s.searchIndex.filter fun e => s.linkedElsewhere run e.symbol := by
  refine List.filter_congr fun e he => ?_
  have hi : e ∈ s.symbols.rows.map fun r => r.2.entry r.1 := hc.index ▸ he
  obtain ⟨r, hr, rfl⟩ := List.mem_map.mp hi
  have hs : (s.withoutRun run).symbols.has r.1 = true :=
    Table.has_iff.mpr ⟨r.2, h.ordered.symbols.get?_eq_some_iff.mpr hr⟩
  simp [isOrphan, Symbol.entry, hs, isLinked_withoutRun h]

/-- A deletion leaves the other runs, whichever way its cascades go. -/
theorem removed_eq_others (h : s.Scoped) (hc : s.Catalogued) (run : Int) :
    (s.withoutRun run).pruned = s.others run := by
  have hsymbols : (s.withoutRun run).pruned.symbols =
      s.symbols.keep fun id _ => s.linkedElsewhere run id := by
    simp only [pruned, isLinked_withoutRun h]
    rfl
  have hlinks : (s.withoutRun run).links =
      s.links.filter fun l => s.monikerRun? l.moniker != some run :=
    List.filter_congr fun l _ => s.losesMoniker_eq run l.moniker
  have hdefinitions : (s.withoutRun run).definitionItems =
      s.definitionItems.keep fun _ i => i.run != run := by
    simp only [withoutRun]
    exact Table.keep_congr fun r hr => (h.definitionItems r hr).stays
  have hreferences : (s.withoutRun run).referenceItems =
      s.referenceItems.keep fun _ i => i.run != run := by
    simp only [withoutRun]
    exact Table.keep_congr fun r hr => (h.referenceItems r hr).stays
  have hpruned : (s.withoutRun run).pruned =
      { s.withoutRun run with
        symbols := (s.withoutRun run).pruned.symbols
        occurrences := (s.withoutRun run).pruned.occurrences
        searchIndex := (s.withoutRun run).pruned.searchIndex } := rfl
  rw [hpruned, hsymbols, occurrences_removed h, searchIndex_removed h hc]
  unfold others
  rw [← monikers_withoutRun h, ← resultSets_withoutRun h, ← ranges_removed h, ← hlinks,
    ← hdefinitions, ← hreferences]
  rfl

theorem has_symbol_others (h : s.Scoped) {r : Int × Symbol} (hr : r ∈ s.symbols.rows) :
    (s.others run).symbols.has r.1 = s.linkedElsewhere run r.1 := by
  have hg : s.symbols.get? r.1 = some r.2 := h.ordered.symbols.get?_eq_some_iff.mpr hr
  have hk : (s.others run).symbols.get? r.1 =
      (s.symbols.get? r.1).filter fun _ => s.linkedElsewhere run r.1 :=
    h.ordered.symbols.get?_keep _ r.1
  rw [Table.has, hk, hg]
  cases s.linkedElsewhere run r.1 <;> rfl

theorem orphanCount_withoutRun (h : s.Scoped) (run : Int) :
    (s.withoutRun run).orphanCount =
      s.symbols.rows.countP fun r => !(s.others run).symbols.has r.1 :=
  List.countP_congr fun r hr => by
    rw [has_symbol_others h hr, isLinked_withoutRun h]

end Store

theorem deleteRun_present {access : Access} (ha : access.Unhindered) {s : Store} {run : Int}
    (hr : s.runs.has run = true) :
    deleteRun run access s =
      (.ok ⟨run, (s.withoutRun run).orphanCount⟩, (s.withoutRun run).pruned) := by
  have hremove : removeRun run { access with inTransaction := true } s =
      (.ok true, s.withoutRun run) := by
    refine removeRun_ok_iff.mpr ⟨ha.allows _ _, hr, ?_⟩
    rw [if_pos hr]
  have hprune : pruneSymbols { access with inTransaction := true } (s.withoutRun run) =
      (.ok (s.withoutRun run).orphanCount, (s.withoutRun run).pruned) :=
    pruneSymbols_ok_iff.mpr ⟨ha.allows _ _, rfl, rfl⟩
  refine Action.transaction_ok_iff.mpr ⟨ha.begins, ?_, ha.commits _⟩
  refine Action.bind_ok_iff.mpr ⟨true, _, hremove, ?_⟩
  exact Action.bind_ok_iff.mpr ⟨_, _, hprune, rfl⟩

/-- In every store that operations lead to, a deletion says that a run is not there exactly if it
is not, and then changes nothing.  If the run is there, the deletion succeeds unless something
stands in its way.  What is left is every row of the other runs as it was, with the symbols that
their monikers are linked to, and the symbols that are gone have been counted. -/
theorem deletion_takes_one_run {s : Store} (h : Reachable s) (run : Int) :
    (∀ access : Access, access.Unhindered →
      (deleteRun run access s = (.error (.notFound "index run" run), s) ↔
        s.runs.has run = false) ∧
      (s.runs.has run = true →
        ∃ deletion t, deleteRun run access s = (.ok deletion, t))) ∧
    ∀ access deletion t, deleteRun run access s = (.ok deletion, t) →
      s.runs.has run = true ∧ deletion.run = run ∧ t = s.others run ∧
      deletion.symbolsPruned = s.symbols.rows.countP fun r => !t.symbols.has r.1 := by
  refine ⟨fun access ha => ⟨⟨fun he => ?_, fun hn => ?_⟩, fun hr => ?_⟩,
    fun access deletion t hd => ?_⟩
  · rw [Bool.eq_false_iff]
    intro hr
    simp [deleteRun_present ha hr] at he
  · exact Store.deleteRun_absent (Bool.eq_false_iff.mp hn) ha.begins ha.writes
  · exact ⟨_, _, deleteRun_present ha hr⟩
  · obtain ⟨hr, rfl, rfl⟩ := deleteRun_store hd
    have heq := Store.removed_eq_others h.scoped h.catalogued.1 run
    refine ⟨hr, rfl, heq, ?_⟩
    rw [heq]
    exact Store.orphanCount_withoutRun h.scoped run

/-- The sample, taken in twice: the symbol is shared. -/
def twiceStore : Store := (Operation.ingest {} {} sampleDump).after {} sampleStore

/-- Of the two runs of the sample, the second one stays whole, and so does the symbol. -/
theorem twice_without_first :
    twiceStore.runs.has 1 = true ∧
      deleteRun 1 {} twiceStore = (.ok ⟨1, 0⟩, twiceStore.others 1) ∧
      (twiceStore.others 1).symbols.has 1 = true := by
  have hr : twiceStore.runs.has 1 = true := by decide +kernel
  have hreach : Reachable twiceStore := .after (.ingest {} {} sampleDump) {} reachable_sample
  have hfree : Access.Unhindered {} := ⟨rfl, rfl, fun _ _ _ => rfl, fun _ => rfl⟩
  obtain ⟨free, effect⟩ := deletion_takes_one_run hreach 1
  obtain ⟨⟨run, pruned⟩, t, hd⟩ := (free {} hfree).2 hr
  obtain ⟨-, rfl, rfl, hp⟩ := effect {} _ t hd
  have hcount : (twiceStore.symbols.rows.countP fun r =>
      !(twiceStore.others 1).symbols.has r.1) = 0 := by decide +kernel
  rw [hcount] at hp
  cases hp
  exact ⟨hr, hd, by decide +kernel⟩

end SymbolAtlas
