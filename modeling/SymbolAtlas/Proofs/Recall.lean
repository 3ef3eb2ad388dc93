import SymbolAtlas.Proofs.Clean
import SymbolAtlas.Proofs.Ledger
import SymbolAtlas.Proofs.Mirror

/-!
What an ingest knows, next to the numbers that are read off the records.  Record by record the two
say the same: which rows the ids stand for, which ranges wait and which are stored, and how many
ends dangle.
-/

namespace SymbolAtlas

namespace Table

variable {α : Type} {t : Table α}

theorem last_insertAll (t : Table α) (rows : List α) :
    (t.insertAll rows).last = t.last + rows.length := by
  induction rows generalizing t with
  | nil => simp [insertAll]
  | cons row rest ih =>
    have hrest : t.insertAll (row :: rest) = (t.insert row).insertAll rest := rfl
    rw [hrest, ih, last_insert, List.length_cons]
    omega

theorem Ordered.insertAll (h : t.Ordered) (rows : List α) : (t.insertAll rows).Ordered :=
  List.foldlRecOn (motive := Table.Ordered) rows Table.insert h fun _ ht row _ => ht.insert row

theorem modify_insert (t : Table α) (row : α) (id : Int) (change : α → α) :
    (t.insert row).modify id change =
      (t.modify id change).insert (if t.last + 1 = id then change row else row) := by
  unfold modify insert
  rw [List.map_append, List.map_singleton]
  by_cases h : t.last + 1 = id
  · simp [h]
  · simp [h]

theorem Ordered.modify_above (h : t.Ordered) {id : Int} (hid : t.last < id) (change : α → α) :
    t.modify id change = t := by
  unfold Table.modify
  have hrows : t.rows.map (fun r => if r.1 = id then (r.1, change r.2) else r) = t.rows.map
      fun r => r := by
    refine List.map_congr_left fun r hr => if_neg fun he => ?_
    have := h.bounded r hr
    omega
  rw [hrows, List.map_id']

end Table

open SymbolAtlas.Past (taken relink rowIn?)

/-- A table with the rows of some ranges behind its own, the first of them last. -/
def rangesWith (base : Table Range) (list : List (Int × Range)) : Table Range :=
  base.insertAll (list.map Prod.snd).reverse

theorem rangesWith_cons (base : Table Range) (entry : Int × Range) (list : List (Int × Range)) :
    rangesWith base (entry :: list) = (rangesWith base list).insert entry.2 := by
  unfold rangesWith
  rw [List.map_cons, List.reverse_cons, Table.insertAll_append]
  rfl

theorem last_rangesWith (base : Table Range) (list : List (Int × Range)) :
    (rangesWith base list).last = base.last + list.length := by
  unfold rangesWith
  rw [Table.last_insertAll, List.length_reverse, List.length_map]

theorem rangesWith_relink {base : Table Range} (h : base.Ordered) {id resultSet : Int}
    {list : List (Int × Range)} {range : ClaimedRange}
    (hr : rowIn? base.last id list = some range) :
    (rangesWith base list).modify range.row
        (fun r => { r with resultSet := some resultSet }) =
      rangesWith base (relink id resultSet list) := by
  induction list with
  | nil => cases hr
  | cons entry rest ih =>
    have ho : (rangesWith base rest).Ordered := h.insertAll _
    have hlast := last_rangesWith base rest
    unfold rowIn? at hr
    unfold relink
    rw [rangesWith_cons, Table.modify_insert]
    split at hr
    next hid =>
      have hrow : (rangesWith base rest).last + 1 = range.row := by
        rw [← Option.some.inj hr, hlast]
        change base.last + rest.length + 1 = base.last + 1 + rest.length
        omega
      rw [if_pos hid, if_pos hrow, rangesWith_cons, ho.modify_above (by omega)]
    next hid =>
      have hrow : (rangesWith base rest).last + 1 ≠ range.row := by
        have := Past.rowIn?_le hr
        omega
      rw [if_neg hid, if_neg hrow, rangesWith_cons, ih hr]

namespace Stage

variable {base : Store} {past : Past} {p : Stage}

/-- The rows of one kind of vertices are numbered as they come. -/
def Numbers (start : Int) (idOf : Element → Option Int) (past : Past) (rows : IdMap Int)
    (last : Int) : Prop :=
  (∀ id, rows.get? id = past.row? start idOf id) ∧
    last = start + past.countP fun e => (idOf e).isSome

theorem Numbers.next {start last id : Int} {idOf : Element → Option Int} {rows : IdMap Int}
    {e : Element} (h : Numbers start idOf past rows last) (he : idOf e = some id) :
    Numbers start idOf (e :: past) (rows.insert id (last + 1)) (last + 1) := by
  obtain ⟨hrows, hlast⟩ := h
  constructor
  · intro j
    unfold Past.row?
    rw [IdMap.get?_insert, Past.latest_cons, he]
    by_cases hj : j = id
    · subst hj
      have hnumber : last + 1 = start + 1 + past.countP fun e => (idOf e).isSome := by omega
      rw [if_pos rfl, if_pos rfl, hnumber]
      rfl
    · have hn : ¬ some id = some j := fun hs => hj (Option.some.inj hs).symm
      rw [if_neg hj, if_neg hn]
      exact hrows j
  · rw [List.countP_cons_of_pos (by simp [he])]
    omega

/-- What is known, and the table of ranges, is as the records say. -/
structure Recalls (base : Store) (past : Past) (p : Stage) : Prop where
  documents : Numbers base.documents.last Element.documentId? past p.known.documents
    p.store.documents.last
  resultSets : Numbers base.resultSets.last Element.resultSetId? past p.known.resultSets
    p.store.resultSets.last
  monikers : Numbers base.monikers.last Element.monikerId? past p.known.monikers
    p.store.monikers.last
  hovers : Numbers base.hovers.last Element.hoverId? past p.known.hovers p.store.hovers.last
  packages : Numbers base.packages.last Element.packageId? past p.known.packages
    p.store.packages.last
  kinds : ∀ bucket, p.known.kindOf? bucket = past.kind? bucket
  waiting : ∀ id, p.known.unclaimed.get? id = past.waiting? base id
  stored : ∀ id, p.known.claimed.get? id = past.stored? base id
  ranges : p.store.ranges = rangesWith base.ranges (past.placed base)
  dangling : p.danglingCount = past.danglingTotal base +
    (past.targets base).countP fun target => target.range.isNone

theorem Recalls.resultSetOf? (h : Recalls base past p) (id : Int) :
    p.known.resultSetOf? id = past.leadsTo? base id := by
  have hown := h.resultSets.1 id
  unfold Known.resultSetOf? Past.leadsTo? Past.resultSetRow?
  rw [hown, h.stored id, h.waiting id]
  cases past.row? base.resultSets.last Element.resultSetId? id with
  | some row => rfl
  | none => cases past.stored? base id <;> rfl

theorem Recalls.range (h : Recalls base past p) (id : Int) (span : Span) :
    Recalls base (.vertex (.range id span) :: past) (p.vertex (.range id span)) := by
  refine { h with waiting := fun j => ?_ }
  change (p.known.unclaimed.insert id ⟨span, none⟩).get? j =
    if j = id then some ⟨span, none⟩ else past.waiting? base j
  rw [IdMap.get?_insert, h.waiting j]

theorem Recalls.kindsLearned (h : Recalls base past p) {bucket : Int} {kind : BucketKind}
    {e : Element} (he : ∀ j, Past.kind? [e] j = if j = bucket then some kind else none) (j : Int) :
    (p.known.learnKind bucket kind).kindOf? j = Past.kind? (e :: past) j := by
  rw [Known.kindOf?_learnKind, Past.kind?_cons, h.kinds, he]

theorem kind?_bucketVertex (kind : BucketKind) (id j : Int) :
    Past.kind? [.vertex (.bucket kind id)] j = if j = id then some kind else none := by
  simp only [Past.kind?, Past.earliest]
  split <;> simp_all

theorem kind?_bucketEdge (kind : BucketKind) (outV inV j : Int) :
    Past.kind? [.edge (.bucket kind outV inV)] j = if j = inV then some kind else none := by
  simp only [Past.kind?, Past.earliest]
  split <;> simp_all

theorem Recalls.vertex (h : Recalls base past p) (v : Vertex) :
    Recalls base (.vertex v :: past) (p.vertex v) := by
  cases v with
  | metaData version projectRoot => exact { h with }
  | document id uri languageId => exact { h with documents := h.documents.next rfl }
  | range id span => exact h.range id span
  | resultSet id => exact { h with resultSets := h.resultSets.next rfl }
  | moniker id scheme identifier kind package => exact { h with monikers := h.monikers.next rfl }
  | hoverResult id result => exact { h with hovers := h.hovers.next rfl }
  | packageInformation id name version manager =>
    exact { h with packages := h.packages.next rfl }
  | bucket kind id =>
    have hkinds := h.kindsLearned (kind?_bucketVertex kind id)
    simp only [Stage.vertex, learn_learnKind]
    exact { h with kinds := hkinds }
  | other => exact { h with }

/-- A document takes the ranges that wait, in their order, and for every other id that it names an
end dangles. -/
theorem claims_taken {start : Table Range} {waiting : Int → Option UnclaimedRange}
    {list : List (Int × Range)} (document : Int) (ids : List Int)
    (hw : ∀ id, p.known.unclaimed.get? id = waiting id)
    (hs : ∀ id, p.known.claimed.get? id = rowIn? start.last id list)
    (hr : p.store.ranges = rangesWith start list) :
    ∃ unclaimed claimed count,
      ids.foldl (claim document) p =
        (p.learn (fun k => { k with unclaimed := unclaimed, claimed := claimed })
          { p.store with
            ranges := rangesWith start ((taken waiting document ids).reverse ++ list) }).counting
          (fun r => { r with danglingReferences := count }) ∧
      (∀ id, unclaimed.get? id = if id ∈ ids then none else waiting id) ∧
      (∀ id, claimed.get? id =
        rowIn? start.last id ((taken waiting document ids).reverse ++ list)) ∧
      count + (taken waiting document ids).length = p.danglingCount + ids.length := by
  induction ids generalizing p waiting list with
  | nil =>
    refine ⟨p.known.unclaimed, p.known.claimed, p.danglingCount, ?_, ?_, hs, rfl⟩
    · change p = ⟨_, { p.store with ranges := rangesWith start list }⟩
      rw [← hr]
      rfl
    · intro id
      rw [if_neg (List.not_mem_nil)]
      exact hw id
  | cons first rest ih =>
    rw [List.foldl_cons]
    cases hfirst : waiting first with
    | none =>
      have hu : p.known.unclaimed.get? first = none := (hw first).trans hfirst
      have hc : claim document p first = p.dangling := by simp only [claim, hu]
      obtain ⟨unclaimed, claimed, count, hfold, hwait, hstored, hcount⟩ :=
        ih (p := p.dangling) hw hs hr
      rw [Past.taken_cons_none hfirst, hc]
      refine ⟨unclaimed, claimed, count, hfold, ?_, hstored, ?_⟩
      · intro id
        rw [hwait id]
        by_cases hid : id = first
        · subst hid
          simp [hfirst]
        · simp [hid]
      · have hd : p.dangling.danglingCount = p.danglingCount + 1 := rfl
        rw [List.length_cons]
        omega
    | some range =>
      have hu : p.known.unclaimed.get? first = some range := (hw first).trans hfirst
      have hlast : p.store.ranges.last + 1 = start.last + 1 + list.length := by
        rw [hr, last_rangesWith]
        omega
      have hclaim : claim document p first =
          p.learn
            (fun k =>
              { k with
                unclaimed := k.unclaimed.erase first
                claimed := k.claimed.insert first
                  ⟨start.last + 1 + list.length, document, range.resultSet⟩ })
            (p.store.withRange document range.span range.resultSet) := by
        rw [claim_of_unclaimed hu, hlast]
      -- The range no longer waits, and the row that it has got is the latest one.
      have hw' : ∀ j, (claim document p first).known.unclaimed.get? j =
          if j = first then none else waiting j := by
        intro j
        rw [hclaim]
        change (p.known.unclaimed.erase first).get? j = _
        rw [IdMap.get?_erase, hw j]
      have hs' : ∀ j, (claim document p first).known.claimed.get? j =
          rowIn? start.last j ((first, ⟨document, range.span, range.resultSet⟩) :: list) := by
        intro j
        rw [hclaim]
        change (p.known.claimed.insert first _).get? j = _
        rw [IdMap.get?_insert, hs j]
        rfl
      have hr' : (claim document p first).store.ranges =
          rangesWith start ((first, ⟨document, range.span, range.resultSet⟩) :: list) := by
        rw [hclaim, rangesWith_cons, ← hr]
        rfl
      have hcount' : (claim document p first).danglingCount = p.danglingCount := by
        rw [hclaim]
        rfl
      obtain ⟨unclaimed, claimed, count, hfold, hwait, hstored, hcount⟩ := ih hw' hs' hr'
      rw [Past.taken_cons_some hfirst]
      rw [List.reverse_cons, List.append_assoc, List.singleton_append]
      refine ⟨unclaimed, claimed, count, ?_, ?_, hstored, ?_⟩
      · rw [hfold, hclaim]
        rfl
      · intro id
        rw [hwait id]
        by_cases hid : id = first
        · simp [hid]
        · simp [hid]
      · rw [List.length_cons, List.length_cons]
        omega

theorem Recalls.counting (h : Recalls base past p) {e : Edge} (change : Report → Report)
    (hk : ∀ bucket, Past.kind? (.edge e :: past) bucket = past.kind? bucket)
    (ht : Past.targets base (.edge e :: past) = past.targets base)
    (hw : ∀ id, Past.waiting? base id (.edge e :: past) = past.waiting? base id)
    (hp : Past.placed base (.edge e :: past) = past.placed base)
    (hc : (change p.ingestion.report).danglingReferences =
      p.danglingCount + past.dangling base (.edge e)) :
    Recalls base (.edge e :: past) (p.counting change) := by
  have hd := h.dangling
  refine { h with kinds := ?_, waiting := ?_, stored := ?_, ranges := ?_, dangling := ?_ }
  · intro bucket
    rw [hk]
    exact h.kinds bucket
  · intro id
    rw [hw]
    exact h.waiting id
  · intro id
    unfold Past.stored?
    rw [hp]
    exact h.stored id
  · rw [hp]
    exact h.ranges
  · change (change p.ingestion.report).danglingReferences =
      past.danglingTotal base + past.dangling base (.edge e) + _
    rw [ht]
    omega

theorem Recalls.contains (h : Recalls base past p) (outV : Int) (inVs : List Int) :
    Recalls base (.edge (.contains outV inVs) :: past) (p.edge (.contains outV inVs)) := by
  have hdocument : p.known.documents.get? outV = past.documentRow? base outV := h.documents.1 outV
  have hdangling := h.dangling
  simp only [edge, hdocument]
  cases hd : past.documentRow? base outV with
  | none =>
    refine h.counting (fun r => { r with
      danglingReferences := r.danglingReferences + 1 }) (fun _ => rfl) rfl (fun id => ?_) ?_ ?_
    · simp [Past.waiting?, hd]
    · simp only [Past.placed, hd]
    · simp only [Past.dangling, hd]
  | some document =>
    obtain ⟨unclaimed, claimed, count, hfold, hwait, hstored, hcount⟩ :=
      claims_taken document inVs h.waiting h.stored h.ranges
    have hle := Past.length_taken_le (fun id => past.waiting? base id) document inVs
    dsimp only
    rw [hfold]
    refine { h with waiting := ?_, stored := ?_, ranges := ?_, dangling := ?_ }
    · intro id
      simp only [Past.waiting?, hd, Option.isSome_some, and_true]
      exact hwait id
    · intro id
      simp only [Past.stored?, Past.placed, hd]
      exact hstored id
    · simp only [Past.placed, hd]
      rfl
    · simp only [Past.danglingTotal, Past.dangling, hd, Past.targets]
      change count = _
      omega

section Next

variable {outV inV resultSet : Int}

theorem waiting?_next (hr : past.resultSetRow? base inV = some resultSet) (id : Int) :
    Past.waiting? base id (.edge (.next outV inV) :: past) =
      if id = outV then
        (past.waiting? base id).map fun range => { range with resultSet := some resultSet }
      else past.waiting? base id := by
  simp only [Past.waiting?, hr]

theorem Recalls.next_waiting (h : Recalls base past p)
    (hr : past.resultSetRow? base inV = some resultSet) {range : UnclaimedRange}
    (hw : past.waiting? base outV = some range) :
    Recalls base (.edge (.next outV inV) :: past)
      (p.learn (fun k => { k with
        unclaimed := k.unclaimed.insert outV { range with resultSet := some resultSet } })
        p.store) := by
  have hplaced : Past.placed base (.edge (.next outV inV) :: past) = past.placed base := by
    simp only [Past.placed, hr, hw]
  have hnone : past.dangling base (.edge (.next outV inV)) = 0 := by simp [Past.dangling, hr, hw]
  refine { h with waiting := ?_, stored := ?_, ranges := ?_, dangling := ?_ }
  · intro id
    change (p.known.unclaimed.insert outV _).get? id = _
    rw [waiting?_next hr, IdMap.get?_insert]
    by_cases hid : id = outV
    · rw [if_pos hid, if_pos hid, hid, hw]
      rfl
    · rw [if_neg hid, if_neg hid]
      exact h.waiting id
  · intro id
    unfold Past.stored?
    rw [hplaced]
    exact h.stored id
  · rw [hplaced]
    exact h.ranges
  · unfold Past.danglingTotal
    rw [hnone]
    exact h.dangling

theorem waiting?_next_stored (hr : past.resultSetRow? base inV = some resultSet)
    (hw : past.waiting? base outV = none) (id : Int) :
    Past.waiting? base id (.edge (.next outV inV) :: past) = past.waiting? base id := by
  rw [waiting?_next hr]
  split
  next hid =>
    rw [hid, hw]
    rfl
  next => rfl

theorem placed_next (hr : past.resultSetRow? base inV = some resultSet)
    (hw : past.waiting? base outV = none) :
    Past.placed base (.edge (.next outV inV) :: past) =
      relink outV resultSet (past.placed base) := by
  simp only [Past.placed, hr, hw]

theorem Recalls.next_stored (h : Recalls base past p) (ho : base.ranges.Ordered)
    (hr : past.resultSetRow? base inV = some resultSet) (hw : past.waiting? base outV = none)
    {range : ClaimedRange} (hs : past.stored? base outV = some range) :
    Recalls base (.edge (.next outV inV) :: past)
      (p.learn (fun k => { k with
        claimed := k.claimed.insert outV { range with resultSet := some resultSet } })
        (p.store.settingResultSet range.row resultSet)) := by
  have hnone : past.dangling base (.edge (.next outV inV)) = 0 := by simp [Past.dangling, hr, hs]
  refine { h with waiting := ?_, stored := ?_, ranges := ?_, dangling := ?_ }
  · intro id
    rw [waiting?_next_stored hr hw]
    exact h.waiting id
  · intro id
    change (p.known.claimed.insert outV _).get? id = _
    unfold Past.stored?
    rw [placed_next hr hw, Past.rowIn?_relink, IdMap.get?_insert]
    by_cases hid : id = outV
    · rw [if_pos hid, if_pos hid]
      change _ = (past.stored? base outV).map _
      rw [hs]
      rfl
    · rw [if_neg hid, if_neg hid]
      exact h.stored id
  · rw [placed_next hr hw, ← rangesWith_relink ho hs, ← h.ranges]
    rfl
  · unfold Past.danglingTotal
    rw [hnone]
    exact h.dangling

theorem Recalls.next (h : Recalls base past p) (ho : base.ranges.Ordered) (outV inV : Int) :
    Recalls base (.edge (.next outV inV) :: past) (p.next outV inV) := by
  have hresultSet : p.known.resultSets.get? inV = past.resultSetRow? base inV := h.resultSets.1 inV
  unfold Stage.next
  rw [hresultSet, h.waiting outV, h.stored outV]
  split
  next hr =>
    refine h.counting (fun r => { r with
      danglingReferences := r.danglingReferences + 1 }) (fun _ => rfl) rfl (fun id => ?_) ?_ ?_
    · simp only [Past.waiting?, hr]
    · simp only [Past.placed, hr]
    · simp [Past.dangling, hr]
  next resultSet hr =>
    split
    next range hw => exact h.next_waiting hr hw
    next range hw hs => exact h.next_stored ho hr hw hs
    next hw hs =>
      have hown : p.known.resultSets.has outV = (past.resultSetRow? base outV).isSome :=
        congrArg Option.isSome (h.resultSets.1 outV)
      have hplaced : Past.placed base (.edge (.next outV inV) :: past) = past.placed base :=
        (placed_next hr hw).trans (Past.relink_of_none hs)
      have hcount : past.dangling base (.edge (.next outV inV)) =
          if p.known.resultSets.has outV then 0 else 1 := by
        simp [Past.dangling, hr, hw, hs, hown]
      split
      next hhas =>
        rw [if_pos hhas] at hcount
        exact h.counting (fun r => { r with ignoredRecords := r.ignoredRecords + 1 })
          (fun _ => rfl) rfl (waiting?_next_stored hr hw) hplaced (by rw [hcount]; rfl)
      next hhas =>
        rw [if_neg hhas] at hcount
        exact h.counting
          (fun r => { r with danglingReferences := r.danglingReferences + 1 })
          (fun _ => rfl) rfl (waiting?_next_stored hr hw) hplaced (by rw [hcount])

end Next

theorem recalls_joined (e : Edge) {q : Stage} {source target : Option Int}
    {store : Int → Int → Store}
    (hq : q = match source, target with
      | some a, some b => p.writing (store a b)
      | _, _ => p.dangling)
    (hd : past.dangling base (.edge e) = Past.missing source target)
    (hwritten : ∀ a b, past.dangling base (.edge e) = 0 →
      Recalls base (.edge e :: past) (p.writing (store a b)))
    (hmissing : past.dangling base (.edge e) = 1 → Recalls base (.edge e :: past) p.dangling) :
    Recalls base (.edge e :: past) q := by
  subst hq
  cases source with
  | none => exact hmissing hd
  | some a =>
    cases target with
    | none => exact hmissing hd
    | some b => exact hwritten a b hd

theorem Recalls.dangling_of_none (h : Recalls base past p) {e : Edge}
    (hn : past.dangling base (.edge e) = 0)
    (ht : Past.targets base (.edge e :: past) = past.targets base) :
    p.danglingCount = Past.danglingTotal base (.edge e :: past) +
      (Past.targets base (.edge e :: past)).countP fun target => target.range.isNone := by
  have hd := h.dangling
  unfold Past.danglingTotal
  rw [ht, hn]
  omega

theorem Recalls.dangling_of_one (h : Recalls base past p) {e : Edge}
    (hn : past.dangling base (.edge e) = 1)
    (ht : Past.targets base (.edge e :: past) = past.targets base) :
    p.danglingCount + 1 = Past.danglingTotal base (.edge e :: past) +
      (Past.targets base (.edge e :: past)).countP fun target => target.range.isNone := by
  have hd := h.dangling
  unfold Past.danglingTotal
  rw [ht, hn]
  omega

theorem Recalls.bucket (h : Recalls base past p) (kind : BucketKind) (outV inV : Int) :
    Recalls base (.edge (.bucket kind outV inV) :: past) (p.bucket kind outV inV) := by
  have hkinds := h.kindsLearned (kind?_bucketEdge kind outV inV)
  have hd : past.dangling base (.edge (.bucket kind outV inV)) =
      Past.missing (past.leadsTo? base outV) (some inV) := rfl
  simp only [Stage.bucket, learn_learnKind]
  split
  next hr =>
    rw [← h.resultSetOf? outV, show p.known.resultSetOf? outV = none from hr] at hd
    exact { h with kinds := hkinds, dangling := h.dangling_of_one hd rfl }
  next resultSet hr =>
    rw [← h.resultSetOf? outV, show p.known.resultSetOf? outV = some resultSet from hr] at hd
    exact { h with kinds := hkinds, dangling := h.dangling_of_none hd rfl }

theorem items_taken (bucket : Int) (property : Option String) (ids : List Int) (p : Stage) :
    ∃ report, ids.foldl (item bucket property) p =
        ⟨{ p.ingestion with report := report },
          p.store.withItemsOf p.ingestion (.item bucket (some ids) none property)⟩ ∧
      report.danglingReferences =
        p.danglingCount + ids.countP fun id => (p.known.claimed.get? id).isNone := by
  obtain ⟨hrun, hknown⟩ := items_known bucket property ids p
  have hstore := items_store bucket property ids p
  refine ⟨(ids.foldl (item bucket property) p).ingestion.report, ?_, ?_⟩
  · rw [← hstore]
    change _ = (⟨⟨p.run, p.known, _⟩, _⟩ : Stage)
    rw [← hrun, ← hknown]
  · clear hrun hknown hstore
    induction ids generalizing p with
    | nil => rfl
    | cons id rest ih =>
      have hfirst := (items_known bucket property [id] p).2
      rw [List.foldl_cons, ih (item bucket property p id)]
      change (item bucket property p id).known = p.known at hfirst
      rw [hfirst]
      cases hc : p.known.claimed.get? id with
      | none =>
        have hd : (item bucket property p id).danglingCount = p.danglingCount + 1 := by
          simp only [item, hc]
          rfl
        rw [List.countP_cons_of_pos (by rw [hc]; rfl)]
        omega
      | some range =>
        have hd : (item bucket property p id).danglingCount = p.danglingCount := by
          simp only [item, hc]
          rfl
        rw [List.countP_cons_of_neg (by rw [hc]; exact Bool.false_ne_true)]
        omega

theorem Recalls.item (h : Recalls base past p) (outV : Int) (inVs : Option (List Int))
    (inV : Option Int) (property : Option String) :
    Recalls base (.edge (.item outV inVs inV property) :: past)
      (p.edge (.item outV inVs inV property)) := by
  obtain ⟨report, hfold, hcount⟩ := items_taken outV property (Edge.itemTargets inVs inV) p
  have hd := h.dangling
  simp only [edge]
  rw [hfold]
  refine { h with dangling := ?_ }
  have hmap : ((Edge.itemTargets inVs inV).map (past.target base outV property)).countP
      (fun target => target.range.isNone) =
        (Edge.itemTargets inVs inV).countP fun id => (p.known.claimed.get? id).isNone := by
    rw [List.countP_map]
    refine List.countP_congr fun id _ => ?_
    rw [h.stored id]
    rfl
  change report.danglingReferences = past.danglingTotal base +
    (past.targets base ++ (Edge.itemTargets inVs inV).map _).countP _
  rw [List.countP_append, hmap, hcount]
  omega

theorem Recalls.edge (h : Recalls base past p) (ho : base.ranges.Ordered) (e : Edge) :
    Recalls base (.edge e :: past) (p.edge e) := by
  cases e with
  | contains outV inVs => exact h.contains outV inVs
  | next outV inV => exact h.next ho outV inV
  | moniker outV inV =>
    have hmoniker : p.known.monikers.get? inV = past.monikerRow? base inV := h.monikers.1 inV
    simp only [Stage.edge, h.resultSetOf?, hmoniker]
    exact recalls_joined (.moniker outV inV) rfl
      rfl (fun _ _ hn => { h with dangling := h.dangling_of_none hn rfl })
      fun hn => { h with dangling := h.dangling_of_one hn rfl }
  | packageInformation outV inV =>
    have hmoniker : p.known.monikers.get? outV = past.monikerRow? base outV := h.monikers.1 outV
    have hpackage : p.known.packages.get? inV = past.packageRow? base inV := h.packages.1 inV
    simp only [Stage.edge, hmoniker, hpackage]
    exact recalls_joined (.packageInformation outV inV) rfl
      rfl (fun _ _ hn => { h with dangling := h.dangling_of_none hn rfl })
      fun hn => { h with dangling := h.dangling_of_one hn rfl }
  | bucket kind outV inV => exact h.bucket kind outV inV
  | hover outV inV =>
    have hhover : p.known.hovers.get? inV = past.hoverRow? base inV := h.hovers.1 inV
    simp only [Stage.edge, h.resultSetOf?, hhover]
    exact recalls_joined (.hover outV inV) rfl
      rfl (fun _ _ hn => { h with dangling := h.dangling_of_none hn rfl })
      fun hn => { h with dangling := h.dangling_of_one hn rfl }
  | item outV inVs inV property => exact h.item outV inVs inV property
  | other => exact { h with }

/-- What holds on from record to record, in view of all the records before. -/
structure Follows (motive : Past → Stage → Prop) : Prop where
  counting : ∀ {past : Past} {p : Stage} {change : Report → Report}, Report.OnlyCounts change →
    (∀ r, (change r).danglingReferences = r.danglingReferences) → motive past p →
    motive past (p.counting change)
  vertex : ∀ {past : Past} {p : Stage} (v : Vertex), motive past p →
    motive (.vertex v :: past) (p.vertex v)
  edge : ∀ {past : Past} {p : Stage} (e : Edge), motive past p →
    motive (.edge e :: past) (p.edge e)

variable {motive : Past → Stage → Prop}

theorem Follows.line (k : Follows motive) (h : motive past p) (bytes : List UInt8) :
    motive ((Element.ofLine? (trimLine bytes)).toList ++ past) (p.line bytes) := by
  have blank : Element.ofLine? [] = none := rfl
  have hl : motive past (p.counting fun r => { r with lines := r.lines + 1 }) :=
    k.counting (fun _ => ⟨rfl, rfl, rfl⟩) (fun _ => rfl) h
  unfold Stage.line
  split
  next ht =>
    rw [ht, blank]
    exact hl
  next =>
    split
    next he =>
      rw [he]
      exact k.counting (fun _ => ⟨rfl, rfl, rfl⟩) (fun _ => rfl) hl
    next e he =>
      rw [he]
      cases e with
      | vertex v => exact k.vertex v (k.counting (fun _ => ⟨rfl, rfl, rfl⟩) (fun _ => rfl) hl)
      | edge e => exact k.edge e (k.counting (fun _ => ⟨rfl, rfl, rfl⟩) (fun _ => rfl) hl)

theorem Follows.lines (k : Follows motive) (h : motive past p) (lines : List (List UInt8)) :
    motive ((lines.filterMap fun bytes => Element.ofLine? (trimLine bytes)).reverse ++ past)
      (lines.foldl Stage.line p) := by
  induction lines generalizing past p with
  | nil => exact h
  | cons bytes rest ih =>
    have hsplit : ((bytes :: rest).filterMap fun bytes => Element.ofLine? (trimLine bytes)).reverse
        ++ past = (rest.filterMap fun bytes => Element.ofLine? (trimLine bytes)).reverse ++
          ((Element.ofLine? (trimLine bytes)).toList ++ past) := by
      rw [List.filterMap_cons]
      cases Element.ofLine? (trimLine bytes) <;> simp
    rw [hsplit]
    exact ih (k.line h bytes)

theorem recalls_follows (ho : base.ranges.Ordered) : Follows (Recalls base) where
  counting _ hd h := { h with dangling := (hd _).trans h.dangling }
  vertex v h := h.vertex v
  edge e h := h.edge ho e

theorem recalls_start (s : Store) (about : RunMeta) (createdAt : Int) :
    Recalls s [] ⟨.start (s.runs.last + 1), s.withRun about createdAt⟩ where
  documents := ⟨fun _ => rfl, (Int.add_zero _).symm⟩
  resultSets := ⟨fun _ => rfl, (Int.add_zero _).symm⟩
  monikers := ⟨fun _ => rfl, (Int.add_zero _).symm⟩
  hovers := ⟨fun _ => rfl, (Int.add_zero _).symm⟩
  packages := ⟨fun _ => rfl, (Int.add_zero _).symm⟩
  kinds _ := rfl
  waiting _ := rfl
  stored _ := rfl
  ranges := rfl
  dangling := rfl

end Stage

end SymbolAtlas
