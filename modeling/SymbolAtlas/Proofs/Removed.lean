import SymbolAtlas.Proofs.Scope

/-!
Taking a run out keeps to the scopes of runs: nothing that stays names anything that goes.
-/

namespace SymbolAtlas

namespace Store

variable {s : Store} {run id k : Int}

theorem losesDocument_iff : s.losesDocument run id = true ↔ s.documentRun? id = some run := by
  simp only [losesDocument, Table.holds_iff, documentRun?, Table.view_eq_some_iff, beq_iff_eq]

theorem losesHover_iff : s.losesHover run id = true ↔ s.hoverRun? id = some run := by
  simp only [losesHover, Table.holds_iff, hoverRun?, Table.view_eq_some_iff, beq_iff_eq]

theorem losesPackage_iff : s.losesPackage run id = true ↔ s.packageRun? id = some run := by
  simp only [losesPackage, Table.holds_iff, packageRun?, Table.view_eq_some_iff, beq_iff_eq]

theorem losesMoniker_iff : s.losesMoniker run id = true ↔ s.monikerRun? id = some run := by
  simp only [losesMoniker, Table.holds_iff, monikerRun?, Table.view_eq_some_iff, beq_iff_eq]

theorem losesResultSet_iff : s.losesResultSet run id = true ↔ s.resultSetRun? id = some run := by
  simp only [losesResultSet, Table.holds_iff, resultSetRun?, Table.view_eq_some_iff, beq_iff_eq]

theorem losesRange_iff :
    s.losesRange run id = true ↔ ∃ document, s.InRun run document id := by
  simp only [losesRange, Table.holds_iff, losesDocument_iff]
  constructor
  · rintro ⟨r, hr, hd⟩
    exact ⟨r.document, hd, Table.view_eq_some_iff.mpr ⟨r, hr, rfl⟩⟩
  · rintro ⟨document, hd, hr⟩
    obtain ⟨r, hget, rfl⟩ := Table.view_eq_some_iff.mp hr
    exact ⟨r, hget, hd⟩

theorem InRun.loses_iff {place document range : Int} (h : s.InRun place document range) :
    (place == run || s.losesDocument run document || s.losesRange run range) = true ↔
      place = run := by
  simp only [Bool.or_eq_true, beq_iff_eq, losesDocument_iff, losesRange_iff]
  constructor
  · rintro ((he | hd) | ⟨d, hd, hr⟩)
    · exact he
    · exact Option.some.inj (h.ofRun.symm.trans hd)
    · cases Option.some.inj (h.ofDocument.symm.trans hr)
      exact Option.some.inj (h.ofRun.symm.trans hd)
  · exact fun he => .inl (.inl he)

theorem cut_eq_some {loses : Int → Bool} {link : Option Int} (h : cut loses link = some k) :
    link = some k := (Option.filter_eq_some_iff.mp h).1

theorem has_run_withoutRun (h : s.Ordered) :
    (s.withoutRun run).runs.has k = true ↔ s.runs.has k = true ∧ k ≠ run := by
  simp only [withoutRun, Table.has_iff, h.runs.get?_keep, Option.filter_eq_some_iff, bne_iff_ne,
    exists_and_right]

theorem view_keep_run {α : Type} {t : Table α} (h : t.Ordered) {f : α → Int} :
    (t.keep fun _ a => f a != run).view f id = some k ↔ t.view f id = some k ∧ k ≠ run := by
  simp only [h.view_keep, Table.view_eq_some_iff, bne_iff_ne]
  constructor
  · rintro ⟨a, ha, hn, rfl⟩
    exact ⟨⟨a, ha, rfl⟩, hn⟩
  · rintro ⟨⟨a, ha, rfl⟩, hn⟩
    exact ⟨a, ha, hn, rfl⟩

theorem mem_keep_run {α : Type} {t : Table α} {f : α → Int} {r : Int × α}
    (hr : r ∈ (t.keep fun _ a => f a != run).rows) : r ∈ t.rows ∧ f r.2 ≠ run := by
  obtain ⟨hm, hn⟩ := (Table.mem_rows_keep _ _ _).mp hr
  exact ⟨hm, bne_iff_ne.mp hn⟩

theorem mem_cut_run {α : Type} {t : Table α} {f : α → Int} {change : α → α} {r : Int × α}
    (hr : r ∈ ((t.keep fun _ a => f a != run).modifyAll change).rows) :
    ∃ a, (r.1, a) ∈ t.rows ∧ f a ≠ run ∧ r.2 = change a := by
  obtain ⟨a, ha, he⟩ := Table.mem_modifyAll_iff.mp hr
  obtain ⟨hm, hn⟩ := mem_keep_run ha
  exact ⟨a, hm, hn, he⟩

theorem documentRun?_withoutRun (h : s.Ordered) :
    (s.withoutRun run).documentRun? id = some k ↔ s.documentRun? id = some k ∧ k ≠ run :=
  view_keep_run h.documents

theorem hoverRun?_withoutRun (h : s.Ordered) :
    (s.withoutRun run).hoverRun? id = some k ↔ s.hoverRun? id = some k ∧ k ≠ run :=
  view_keep_run h.hovers

theorem packageRun?_withoutRun (h : s.Ordered) :
    (s.withoutRun run).packageRun? id = some k ↔ s.packageRun? id = some k ∧ k ≠ run :=
  view_keep_run h.packages

theorem monikerRun?_withoutRun (h : s.Ordered) :
    (s.withoutRun run).monikerRun? id = some k ↔ s.monikerRun? id = some k ∧ k ≠ run := by
  unfold monikerRun? withoutRun
  rw [Table.view_modifyAll fun _ => by rfl]
  exact view_keep_run h.monikers

theorem resultSetRun?_withoutRun (h : s.Ordered) :
    (s.withoutRun run).resultSetRun? id = some k ↔ s.resultSetRun? id = some k ∧ k ≠ run := by
  unfold resultSetRun? withoutRun
  rw [Table.view_modifyAll fun _ => by rfl]
  exact view_keep_run h.resultSets

theorem inRun_withoutRun (h : s.Ordered) {document range : Int} (hn : k ≠ run)
    (hi : s.InRun k document range) : (s.withoutRun run).InRun k document range := by
  refine ⟨(documentRun?_withoutRun h).mpr ⟨hi.ofRun, hn⟩, ?_⟩
  unfold rangeDocument? withoutRun
  rw [Table.view_modifyAll fun _ => by rfl, h.ranges.view_keep]
  obtain ⟨r, hr, rfl⟩ := Table.view_eq_some_iff.mp hi.ofDocument
  refine ⟨r, hr, ?_, rfl⟩
  have hl : s.losesDocument run r.document ≠ true := fun hl =>
    hn (Option.some.inj (hi.ofRun.symm.trans (losesDocument_iff.mp hl)))
  simpa using hl

theorem linkedFrom_withoutRun (h : s.Ordered) {symbol : Int} (hn : k ≠ run)
    (hl : s.LinkedFrom k symbol) : (s.withoutRun run).LinkedFrom k symbol := by
  obtain ⟨l, hm, he, hk⟩ := hl
  refine ⟨l, List.mem_filter.mpr ⟨hm, ?_⟩, he, (monikerRun?_withoutRun h).mpr ⟨hk, hn⟩⟩
  have : s.losesMoniker run l.moniker ≠ true := fun hl =>
    hn (Option.some.inj (hk.symm.trans (losesMoniker_iff.mp hl)))
  simpa using this

theorem ordered_withoutRun (h : s.Ordered) (run : Int) : (s.withoutRun run).Ordered := by
  constructor
  all_goals simp only [withoutRun]
  · exact h.runs.keep _
  · exact h.documents.keep _
  · exact h.hovers.keep _
  · exact h.packages.keep _
  · exact (h.monikers.keep _).modifyAll _
  · exact h.symbols
  · exact (h.resultSets.keep _).modifyAll _
  · exact (h.ranges.keep _).modifyAll _
  · exact h.definitionItems.keep _
  · exact h.referenceItems.keep _

theorem monikerLink_withoutRun (h : s.Scoped) {a : Moniker} (hm : (id, a) ∈ s.monikers.rows)
    (hn : a.run ≠ run) :
    ((s.withoutRun run).links.filter fun l => l.moniker == id).length = 1 := by
  have hl : s.monikerRun? id = some a.run :=
    Table.view_eq_some_iff.mpr ⟨a, h.ordered.monikers.get?_eq_some_iff.mpr hm, rfl⟩
  have hk : s.losesMoniker run id = false := by
    rw [Bool.eq_false_iff]
    exact fun he => hn (Option.some.inj (hl.symm.trans (losesMoniker_iff.mp he)))
  rw [← h.monikerLink _ hm]
  simp only [withoutRun, List.filter_filter]
  congr 1
  apply List.filter_congr
  intro l _
  by_cases he : l.moniker = id
  · simp [he, hk]
  · simp [he]

theorem links_withoutRun (h : s.Scoped) {l : MonikerLink} (hl : l ∈ (s.withoutRun run).links) :
    (s.withoutRun run).monikers.has l.moniker = true ∧
      (s.withoutRun run).symbols.has l.symbol = true := by
  obtain ⟨hm, hn⟩ := List.mem_filter.mp hl
  obtain ⟨hk, hs⟩ := h.links l hm
  obtain ⟨m, hg⟩ := Table.has_iff.mp hk
  have hv : s.monikerRun? l.moniker = some m.run := Table.view_eq_some_iff.mpr ⟨m, hg, rfl⟩
  have hne : m.run ≠ run := fun he => by
    simp [losesMoniker_iff.mpr (hv.trans (congrArg some he))] at hn
  exact ⟨Table.has_of_view ((monikerRun?_withoutRun h.ordered).mpr ⟨hv, hne⟩), hs⟩

theorem scoped_withoutRun (h : s.Scoped) (run : Int) : (s.withoutRun run).Scoped where
  ordered := ordered_withoutRun h.ordered run
  documents r hr := by
    obtain ⟨hm, hn⟩ := mem_keep_run hr
    exact (has_run_withoutRun h.ordered).mpr ⟨h.documents r hm, hn⟩
  hovers r hr := by
    obtain ⟨hm, hn⟩ := mem_keep_run hr
    exact (has_run_withoutRun h.ordered).mpr ⟨h.hovers r hm, hn⟩
  packages r hr := by
    obtain ⟨hm, hn⟩ := mem_keep_run hr
    exact (has_run_withoutRun h.ordered).mpr ⟨h.packages r hm, hn⟩
  monikers r hr := by
    obtain ⟨a, hm, hn, he⟩ := mem_cut_run hr
    rw [he]
    exact (has_run_withoutRun h.ordered).mpr ⟨h.monikers _ hm, hn⟩
  resultSets r hr := by
    obtain ⟨a, hm, hn, he⟩ := mem_cut_run hr
    rw [he]
    exact (has_run_withoutRun h.ordered).mpr ⟨h.resultSets _ hm, hn⟩
  packageOf r hr p hp := by
    obtain ⟨a, hm, hn, he⟩ := mem_cut_run hr
    rw [he] at hp ⊢
    exact (packageRun?_withoutRun h.ordered).mpr ⟨h.packageOf _ hm p (cut_eq_some hp), hn⟩
  hoverOf r hr p hp := by
    obtain ⟨a, hm, hn, he⟩ := mem_cut_run hr
    rw [he] at hp ⊢
    exact (hoverRun?_withoutRun h.ordered).mpr ⟨h.hoverOf _ hm p (cut_eq_some hp), hn⟩
  monikerOf r hr p hp := by
    obtain ⟨a, hm, hn, he⟩ := mem_cut_run hr
    rw [he] at hp ⊢
    exact (monikerRun?_withoutRun h.ordered).mpr ⟨h.monikerOf _ hm p (cut_eq_some hp), hn⟩
  ranges r hr := by
    obtain ⟨a, ha, he⟩ := Table.mem_modifyAll_iff.mp hr
    obtain ⟨hm, hn⟩ := (Table.mem_rows_keep _ _ _).mp ha
    obtain ⟨k, hd, hk⟩ := h.ranges _ hm
    have hne : k ≠ run := by
      rintro rfl
      simp [losesDocument_iff.mpr hd] at hn
    rw [he]
    refine ⟨k, (documentRun?_withoutRun h.ordered).mpr ⟨hd, hne⟩, fun j hj => ?_⟩
    exact (resultSetRun?_withoutRun h.ordered).mpr ⟨hk j (cut_eq_some hj), hne⟩
  definitionItems r hr := by
    obtain ⟨hm, hn⟩ := (Table.mem_rows_keep _ _ _).mp hr
    have hi := h.definitionItems r hm
    refine inRun_withoutRun h.ordered (fun he => ?_) hi
    simp [losesItem, hi.loses_iff.mpr he] at hn
  referenceItems r hr := by
    obtain ⟨hm, hn⟩ := (Table.mem_rows_keep _ _ _).mp hr
    have hi := h.referenceItems r hm
    refine inRun_withoutRun h.ordered (fun he => ?_) hi
    simp [losesItem, hi.loses_iff.mpr he] at hn
  occurrences o ho := by
    obtain ⟨hm, hn⟩ := List.mem_filter.mp ho
    obtain ⟨hi, hl⟩ := h.occurrences o hm
    have hne : o.run ≠ run := fun he => by
      simp [losesOccurrence, hi.loses_iff.mpr he] at hn
    exact ⟨inRun_withoutRun h.ordered hne hi, linkedFrom_withoutRun h.ordered hne hl⟩
  monikerLink r hr := by
    obtain ⟨a, hm, hn, -⟩ := mem_cut_run hr
    exact monikerLink_withoutRun h hm hn
  links _ hl := links_withoutRun h hl

theorem linked_of_link {l : MonikerLink} (h : l ∈ s.links) : s.isLinked l.symbol = true :=
  List.any_eq_true.mpr ⟨l, h, beq_self_eq_true _⟩

theorem get?_symbols_pruned (h : s.Ordered) (id : Int) :
    s.pruned.symbols.get? id = if s.isLinked id then s.symbols.get? id else none := by
  simp only [pruned, h.symbols.get?_keep]
  cases s.isLinked id <;> cases s.symbols.get? id <;> rfl

theorem scoped_pruned (h : s.Scoped) : s.pruned.Scoped where
  ordered := { h.ordered with
    symbols := by simp only [pruned]; exact h.ordered.symbols.keep _ }
  documents := h.documents
  hovers := h.hovers
  packages := h.packages
  monikers := h.monikers
  resultSets := h.resultSets
  packageOf := h.packageOf
  hoverOf := h.hoverOf
  monikerOf := h.monikerOf
  ranges := h.ranges
  definitionItems r hr := ⟨(h.definitionItems r hr).ofRun, (h.definitionItems r hr).ofDocument⟩
  referenceItems r hr := ⟨(h.referenceItems r hr).ofRun, (h.referenceItems r hr).ofDocument⟩
  occurrences o ho := by
    obtain ⟨hi, hl⟩ := h.occurrences o (List.mem_filter.mp ho).1
    exact ⟨⟨hi.ofRun, hi.ofDocument⟩, hl⟩
  monikerLink := h.monikerLink
  links l hl := by
    obtain ⟨symbol, hs⟩ := Table.has_iff.mp (h.links l hl).2
    refine ⟨(h.links l hl).1, Table.has_iff.mpr ⟨symbol, ?_⟩⟩
    have hk : s.isLinked l.symbol = true := linked_of_link hl
    rw [get?_symbols_pruned h.ordered, if_pos hk]
    exact hs

end Store

/-- A deletion that succeeds found the run, and leaves the store without it and without the
symbols that only it had. -/
theorem deleteRun_store {access : Access} {s t : Store} {run : Int} {deletion : Deletion}
    (h : deleteRun run access s = (.ok deletion, t)) :
    s.runs.has run = true ∧ deletion = ⟨run, (s.withoutRun run).orphanCount⟩ ∧
      (s.withoutRun run).pruned = t := by
  obtain ⟨-, h, -⟩ := Action.transaction_ok_iff.mp h
  obtain ⟨found, u, hr, h⟩ := Action.bind_ok_iff.mp h
  obtain ⟨-, rfl, rfl⟩ := removeRun_ok_iff.mp hr
  cases hf : s.runs.has run with
  | false =>
    simp only [hf, Bool.false_eq_true, if_false] at h
    simp [Action.fail] at h
  | true =>
    simp only [hf, if_true] at h
    obtain ⟨count, v, hp, h⟩ := Action.bind_ok_iff.mp h
    obtain ⟨rfl, rfl⟩ := Action.pure_ok_iff.mp h
    obtain ⟨-, rfl, rfl⟩ := pruneSymbols_ok_iff.mp hp
    exact ⟨rfl, rfl, rfl⟩

end SymbolAtlas
