import Mathlib.Data.List.Nodup
import Mathlib.Data.List.Perm.Basic
import SymbolAtlas.Proofs.Declared

namespace SymbolAtlas

namespace Past

variable {α : Type} {base : Store} {past : Past} {id : Int}

/-- The first thing said, by a record in view of those before it. -/
def first (tells : Element → Past → Option α) : Past → Option α
  | [] => none
  | e :: past => (first tells past).or (tells e past)

/-- The document of a range: that of the first `contains` edge that lists the range after its vertex
and whose document was declared before. -/
def owner? (base : Store) (past : Past) (id : Int) : Option Int :=
  past.first fun e past =>
    match e with
    | .edge (.contains outV inVs) =>
      if id ∈ inVs ∧ (past.span? id).isSome then past.documentRow? base outV else none
    | _ => none

/-- The result set of a range: that of the last `next` edge from the range that comes after its
vertex and after a result set with the id that the edge names. -/
def linked? (base : Store) (past : Past) (id : Int) : Option Int :=
  past.latest fun e past =>
    match e with
    | .edge (.next outV inV) =>
      if id = outV ∧ (past.span? id).isSome then past.resultSetRow? base inV else none
    | _ => none

/-- The ranges that were declared, the latest first. -/
def ranges (past : Past) : List (Int × Span) := past.filterMap Element.range?

theorem span?_of_first {tells : Element → Past → Option α} {a : α}
    (seen : ∀ e past, tells e past = some a → (span? past id).isSome = true)
    (h : first tells past = some a) : (span? past id).isSome = true := by
  induction past with
  | nil => cases h
  | cons e past ih =>
    rw [first, Option.or_eq_some_iff] at h
    apply span?_cons
    rcases h with h | ⟨-, h⟩
    · exact ih h
    · exact seen e past h

theorem owner?_of_unseen (base : Store) (h : span? past id = none) :
    owner? base past id = none := by
  cases ho : owner? base past id with
  | none => rfl
  | some document =>
    have hs : (span? past id).isSome = true := by
      refine span?_of_first (fun e past he => ?_) ho
      split at he
      next =>
        split at he
        next hc => exact hc.2
        next => cases he
      next => cases he
    simp [h] at hs

theorem linked?_of_unseen (base : Store) (h : span? past id = none) :
    linked? base past id = none := by
  cases hl : linked? base past id with
  | none => rfl
  | some resultSet =>
    have hs : (span? past id).isSome = true := by
      refine of_latest (motive := fun past => (span? past id).isSome = true)
        (fun _ _ => span?_cons) (fun e past he => ?_) hl
      split at he
      next =>
        split at he
        next hc => exact span?_cons hc.2
        next => cases he
      next => cases he
    simp [h] at hs

theorem mem_ranges_of_span? {span : Span} (h : span? past id = some span) :
    (id, span) ∈ ranges past := by
  refine of_latest (motive := fun past => (id, span) ∈ ranges past) (fun e past hp => ?_)
    (fun e past he => ?_) h
  · obtain ⟨r, hr, hv⟩ := List.mem_filterMap.mp hp
    exact List.mem_filterMap.mpr ⟨r, List.mem_cons_of_mem _ hr, hv⟩
  · split at he
    next r span' =>
      split at he
      next hid =>
        cases he
        exact List.mem_filterMap.mpr ⟨_, List.mem_cons_self, by rw [hid]; rfl⟩
      next => cases he
    next => cases he

theorem mem_ranges_iff (hn : ((ranges past).map Prod.fst).Nodup) {span : Span} :
    (id, span) ∈ ranges past ↔ span? past id = some span := by
  refine ⟨fun hm => ?_, mem_ranges_of_span?⟩
  induction past with
  | nil => cases hm
  | cons e past ih =>
    cases e with
    | edge e => exact ih hn hm
    | vertex v =>
      cases v with
      | range r first =>
        obtain ⟨hfresh, hrest⟩ := List.nodup_cons.mp hn
        rw [Stage.span?_range]
        rcases List.mem_cons.mp hm with he | hold
        · cases he
          rw [if_pos rfl]
        · have hne : id ≠ r := fun he => hfresh (List.mem_map.mpr ⟨_, hold, he⟩)
          rw [if_neg hne]
          exact ih hrest hold
      | _ => exact ih hn hm

theorem mem_taken_iff {waiting : Int → Option UnclaimedRange} {document : Int} {ids : List Int}
    {entry : Int × Range} :
    entry ∈ taken waiting document ids ↔ entry.1 ∈ ids ∧
      ∃ range, waiting entry.1 = some range ∧
        entry.2 = ⟨document, range.span, range.resultSet⟩ := by
  unfold taken
  rw [List.mem_filterMap]
  constructor
  · rintro ⟨id, hid, he⟩
    obtain ⟨range, hw, rfl⟩ := Option.map_eq_some_iff.mp he
    exact ⟨List.mem_eraseDups.mp hid, range, hw, rfl⟩
  · rintro ⟨hid, range, hw, he⟩
    refine ⟨entry.1, List.mem_eraseDups.mpr hid, ?_⟩
    rw [hw, Option.map_some, ← he]

theorem nodup_taken (waiting : Int → Option UnclaimedRange) (document : Int) (ids : List Int) :
    ((taken waiting document ids).map Prod.fst).Nodup := by
  induction ids generalizing waiting with
  | nil => exact List.nodup_nil
  | cons id rest ih =>
    cases hw : waiting id with
    | none =>
      rw [taken_cons_none hw]
      exact ih waiting
    | some range =>
      rw [taken_cons_some hw, List.map_cons, List.nodup_cons]
      refine ⟨fun hm => ?_, ih _⟩
      obtain ⟨entry, he, hid⟩ := List.mem_map.mp hm
      obtain ⟨-, range', hw', -⟩ := mem_taken_iff.mp he
      rw [if_pos hid] at hw'
      cases hw'

theorem keys_relink (id resultSet : Int) (list : List (Int × Range)) :
    (relink id resultSet list).map Prod.fst = list.map Prod.fst := by
  induction list with
  | nil => rfl
  | cons entry rest ih =>
    unfold relink
    split
    next => rfl
    next => rw [List.map_cons, List.map_cons, ih]

theorem relink_of_absent {resultSet : Int} {list : List (Int × Range)}
    (h : id ∉ list.map Prod.fst) : relink id resultSet list = list := by
  induction list with
  | nil => rfl
  | cons entry rest ih =>
    rw [List.map_cons, List.mem_cons, not_or] at h
    unfold relink
    rw [if_neg h.1, ih h.2]

theorem mem_relink_iff {resultSet : Int} {list : List (Int × Range)}
    (hn : (list.map Prod.fst).Nodup) {entry : Int × Range} :
    entry ∈ relink id resultSet list ↔ ∃ range, (entry.1, range) ∈ list ∧
      entry.2 = if entry.1 = id then { range with resultSet := some resultSet } else range := by
  induction list with
  | nil => simp [relink]
  | cons first rest ih =>
    obtain ⟨j, range⟩ := first
    obtain ⟨hfresh, hrest⟩ := List.nodup_cons.mp hn
    unfold relink
    by_cases hid : id = j
    · subst hid
      rw [if_pos rfl]
      constructor
      · intro hm
        rcases List.mem_cons.mp hm with rfl | hm
        · exact ⟨range, List.mem_cons_self, (if_pos rfl).symm⟩
        · have hne : entry.1 ≠ id := fun he => hfresh (List.mem_map.mpr ⟨entry, hm, he⟩)
          exact ⟨entry.2, List.mem_cons_of_mem _ hm, (if_neg hne).symm⟩
      · rintro ⟨range', hm, he⟩
        rcases List.mem_cons.mp hm with hfirst | hm
        · obtain ⟨hj, hr⟩ := Prod.mk.inj hfirst
          rw [if_pos hj, hr] at he
          exact List.mem_cons.mpr (.inl (Prod.ext hj he))
        · have hne : entry.1 ≠ id := fun hj => hfresh (List.mem_map.mpr ⟨_, hm, hj⟩)
          rw [if_neg hne] at he
          have hentry : entry = (entry.1, range') := Prod.ext rfl he
          exact List.mem_cons_of_mem _ (hentry ▸ hm)
    · rw [if_neg hid, List.mem_cons, ih hrest]
      constructor
      · rintro (rfl | ⟨range', hm, he⟩)
        · exact ⟨range, List.mem_cons_self, (if_neg (Ne.symm hid)).symm⟩
        · exact ⟨range', List.mem_cons_of_mem _ hm, he⟩
      · rintro ⟨range', hm, he⟩
        rcases List.mem_cons.mp hm with hfirst | hm
        · obtain ⟨hj, hr⟩ := Prod.mk.inj hfirst
          have hne : entry.1 ≠ id := fun he => hid (he.symm.trans hj)
          rw [if_neg hne, hr] at he
          exact .inl (Prod.ext hj he)
        · exact .inr ⟨range', hm, he⟩

/-- What waits and what is stored is told by the document and the result set of each range. -/
structure Accounts (base : Store) (past : Past) : Prop where
  waiting : ∀ id, waiting? base id past =
    if (owner? base past id).isSome then none
    else (span? past id).map fun span => ⟨span, linked? base past id⟩
  keys : ((placed base past).map Prod.fst).Nodup
  placed : ∀ entry, entry ∈ Past.placed base past ↔
    ∃ document span, owner? base past entry.1 = some document ∧
      span? past entry.1 = some span ∧ entry.2 = ⟨document, span, linked? base past entry.1⟩

theorem Accounts.other (h : Accounts base past) {e : Element}
    (hw : ∀ id, waiting? base id (e :: past) = waiting? base id past)
    (hp : Past.placed base (e :: past) = Past.placed base past)
    (ho : ∀ id, owner? base (e :: past) id = owner? base past id)
    (hs : ∀ id, span? (e :: past) id = span? past id)
    (hl : ∀ id, linked? base (e :: past) id = linked? base past id) :
    Accounts base (e :: past) := by
  refine ⟨fun id => ?_, ?_, fun entry => ?_⟩
  · rw [hw, ho, hs, hl]
    exact h.waiting id
  · rw [hp]
    exact h.keys
  · rw [hp, ho, hs, hl]
    exact h.placed entry

theorem owner?_vertex (base : Store) (past : Past) (v : Vertex) (id : Int) :
    owner? base (.vertex v :: past) id = owner? base past id := Option.or_none

theorem Accounts.range (h : Accounts base past) {r : Int} (hf : span? past r = none)
    (span : Span) : Accounts base (.vertex (.range r span) :: past) := by
  have howner := owner?_of_unseen base hf
  have hlinked := linked?_of_unseen base hf
  refine ⟨fun id => ?_, h.keys, fun entry => ?_⟩
  · rw [owner?_vertex, Stage.span?_range]
    change (if id = r then some ⟨span, none⟩ else waiting? base id past) =
      if _ then none else Option.map (fun span => ⟨span, linked? base past id⟩) _
    by_cases hid : id = r
    · subst hid
      simp [howner, hlinked]
    · rw [if_neg hid, if_neg hid]
      exact h.waiting id
  · rw [owner?_vertex, Stage.span?_range]
    refine (h.placed entry).trans ?_
    by_cases hid : entry.1 = r
    · simp [hid, howner]
    · rw [if_neg hid]
      rfl

theorem owner?_contains (base : Store) (past : Past) (outV : Int) (inVs : List Int) (id : Int) :
    owner? base (.edge (.contains outV inVs) :: past) id =
      (owner? base past id).or
        (if id ∈ inVs ∧ (span? past id).isSome then documentRow? base past outV else none) := rfl

theorem Accounts.contains (h : Accounts base past) {outV document : Int}
    (hd : documentRow? base past outV = some document) (inVs : List Int) :
    Accounts base (.edge (.contains outV inVs) :: past) := by
  have hplaced : Past.placed base (.edge (.contains outV inVs) :: past) =
      (taken (fun id => waiting? base id past) document inVs).reverse ++
        Past.placed base past := by simp only [Past.placed, hd]
  have howner := owner?_contains base past outV inVs
  rw [hd] at howner
  refine ⟨fun id => ?_, ?_, fun entry => ?_⟩
  · have hw : waiting? base id (.edge (.contains outV inVs) :: past) =
        if id ∈ inVs then none else waiting? base id past := by simp [waiting?, hd]
    rw [hw, howner, h.waiting id]
    change _ = if _ then none else
      (span? past id).map fun span => (⟨span, linked? base past id⟩ : UnclaimedRange)
    cases owner? base past id with
    | some document => simp
    | none =>
      by_cases hid : id ∈ inVs
      · cases span? past id <;> simp [hid]
      · simp [hid]
  · -- A range that is taken was waiting, so it has not been stored before.
    rw [hplaced, List.map_append, List.nodup_append, List.map_reverse, List.nodup_reverse]
    refine ⟨nodup_taken _ document inVs, h.keys, ?_⟩
    intro id hid j hj hne
    subst hne
    obtain ⟨entry, he, rfl⟩ := List.mem_map.mp (List.mem_reverse.mp hid)
    obtain ⟨-, range, hw, -⟩ := mem_taken_iff.mp he
    obtain ⟨old, ho, hkey⟩ := List.mem_map.mp hj
    obtain ⟨document', span, howned, -⟩ := (h.placed old).mp ho
    rw [hkey] at howned
    rw [h.waiting, howned] at hw
    cases hw
  · rw [hplaced, List.mem_append, List.mem_reverse, mem_taken_iff, h.placed entry, h.waiting,
      howner]
    change _ ↔ ∃ document span, _ = some document ∧ span? past entry.1 = some span ∧
      entry.2 = ⟨document, span, linked? base past entry.1⟩
    cases owner? base past entry.1 with
    | some document => simp
    | none =>
      cases span? past entry.1 with
      | none => simp
      | some span => by_cases hid : entry.1 ∈ inVs <;> simp [hid]

theorem linked?_next (base : Store) (past : Past) (outV inV id : Int) :
    linked? base (.edge (.next outV inV) :: past) id =
      (if id = outV ∧ (span? past id).isSome then resultSetRow? base past inV else none).or
        (linked? base past id) := rfl

theorem Accounts.next (h : Accounts base past) {outV inV resultSet : Int}
    (hr : resultSetRow? base past inV = some resultSet) :
    Accounts base (.edge (.next outV inV) :: past) := by
  have howner : ∀ id, owner? base (.edge (.next outV inV) :: past) id = owner? base past id :=
    fun _ => Option.or_none
  have hlinked := linked?_next base past outV inV
  rw [hr] at hlinked
  have hplaced : Past.placed base (.edge (.next outV inV) :: past) =
      relink outV resultSet (Past.placed base past) := by
    cases hw : waiting? base outV past with
    | none => exact Stage.placed_next hr hw
    | some range =>
      -- No range is stored under the id of one that waits.
      have habsent : outV ∉ (Past.placed base past).map Prod.fst := by
        intro hm
        obtain ⟨entry, he, rfl⟩ := List.mem_map.mp hm
        obtain ⟨document, span, howned, -⟩ := (h.placed entry).mp he
        rw [h.waiting, howned] at hw
        cases hw
      rw [relink_of_absent habsent]
      simp only [Past.placed, hr, hw]
  refine ⟨fun id => ?_, ?_, fun entry => ?_⟩
  · rw [Stage.waiting?_next hr, howner, hlinked, h.waiting id]
    change _ = if _ then none else (span? past id).map fun span => (⟨span, _⟩ : UnclaimedRange)
    cases owner? base past id with
    | some document => simp
    | none =>
      cases span? past id with
      | none => simp
      | some span => by_cases hid : id = outV <;> simp [hid]
  · rw [hplaced, keys_relink]
    exact h.keys
  · rw [hplaced, mem_relink_iff h.keys, howner, hlinked]
    change _ ↔ ∃ document span, _ ∧ span? past entry.1 = some span ∧ _
    constructor
    · rintro ⟨range, hm, he⟩
      obtain ⟨document, span, howned, hspan, hrange⟩ := (h.placed _).mp hm
      refine ⟨document, span, howned, hspan, ?_⟩
      dsimp only at howned hspan hrange
      rw [he, hrange, hspan]
      by_cases hid : entry.1 = outV <;> simp [hid]
    · rintro ⟨document, span, howned, hspan, he⟩
      refine ⟨⟨document, span, linked? base past entry.1⟩,
        (h.placed _).mpr ⟨document, span, howned, hspan, rfl⟩, ?_⟩
      rw [he, hspan]
      by_cases hid : entry.1 = outV <;> simp [hid]

theorem accounts (base : Store) (hn : ((ranges past).map Prod.fst).Nodup) :
    Accounts base past := by
  induction past with
  | nil => exact ⟨fun _ => rfl, List.nodup_nil, fun entry => by simp [Past.placed, owner?, first]⟩
  | cons e past ih =>
    cases e with
    | vertex v =>
      cases v with
      | range r span =>
        obtain ⟨hfresh, hrest⟩ := List.nodup_cons.mp hn
        have hnone : span? past r = none := by
          rw [Option.eq_none_iff_forall_ne_some]
          intro span' hs
          exact hfresh (List.mem_map.mpr ⟨_, mem_ranges_of_span? hs, rfl⟩)
        exact (ih hrest).range hnone span
      | _ =>
        exact (ih hn).other (fun _ => rfl) rfl (owner?_vertex base past _) (fun _ => rfl)
          fun _ => rfl
    | edge e =>
      cases e with
      | contains outV inVs =>
        cases hd : documentRow? base past outV with
        | some document => exact (ih hn).contains hd inVs
        | none =>
          refine (ih hn).other (fun id => ?_) ?_ (fun id => ?_) (fun _ => rfl) fun _ => rfl
          · simp [waiting?, hd]
          · simp only [Past.placed, hd]
          · rw [owner?_contains, hd]
            simp
      | next outV inV =>
        cases hr : resultSetRow? base past inV with
        | some resultSet => exact (ih hn).next hr
        | none =>
          refine (ih hn).other (fun id => ?_) ?_ (fun _ => Option.or_none) (fun _ => rfl)
            fun id => ?_
          · simp only [waiting?, hr]
          · simp only [Past.placed, hr]
          · rw [linked?_next, hr]
            simp
      | _ =>
        exact (ih hn).other (fun _ => rfl) rfl (fun _ => Option.or_none) (fun _ => rfl)
          fun _ => rfl

/-- The stored ranges are those with a document. -/
theorem placed_perm (base : Store) (hn : ((ranges past).map Prod.fst).Nodup) :
    (placed base past).Perm ((ranges past).filterMap fun v =>
      (owner? base past v.1).map fun document =>
        (v.1, ⟨document, v.2, linked? base past v.1⟩)) := by
  have h := accounts base hn
  have hnodup : ((ranges past).filterMap fun v => (owner? base past v.1).map fun document =>
      (v.1, (⟨document, v.2, linked? base past v.1⟩ : Range))).Nodup := by
    refine List.Nodup.filterMap (fun v w entry hv hw => ?_) (List.Nodup.of_map _ hn)
    obtain ⟨document, -, rfl⟩ := Option.map_eq_some_iff.mp hv
    obtain ⟨document', -, he⟩ := Option.map_eq_some_iff.mp hw
    obtain ⟨hid, hrange⟩ := Prod.mk.inj he
    exact Prod.ext hid.symm (congrArg Range.span hrange).symm
  refine (List.perm_ext_iff_of_nodup (List.Nodup.of_map _ h.keys) hnodup).mpr fun entry => ?_
  rw [h.placed entry, List.mem_filterMap]
  constructor
  · rintro ⟨document, span, howned, hspan, he⟩
    refine ⟨(entry.1, span), (mem_ranges_iff hn).mpr hspan, ?_⟩
    rw [howned, Option.map_some, ← he]
  · rintro ⟨v, hv, he⟩
    obtain ⟨document, howned, rfl⟩ := Option.map_eq_some_iff.mp he
    exact ⟨document, v.2, howned, (mem_ranges_iff hn).mp hv, rfl⟩

theorem rowIn?_of_mem (last : Int) {list : List (Int × Range)} (hn : (list.map Prod.fst).Nodup)
    {entry : Int × Range} (h : entry ∈ list) :
    ∃ row, rowIn? last entry.1 list = some ⟨row, entry.2.document, entry.2.resultSet⟩ := by
  induction list with
  | nil => cases h
  | cons first rest ih =>
    obtain ⟨hfresh, hrest⟩ := List.nodup_cons.mp hn
    unfold rowIn?
    rcases List.mem_cons.mp h with rfl | h
    · exact ⟨_, if_pos rfl⟩
    · have hne : entry.1 ≠ first.1 := fun he => hfresh (List.mem_map.mpr ⟨entry, h, he⟩)
      rw [if_neg hne]
      exact ih hrest h

end Past

namespace IdMap

variable {α : Type} {m : IdMap α}

/-- No id has two values. -/
def Distinct (m : IdMap α) : Prop := (m.pairs.map Prod.fst).Nodup

theorem Distinct.erase (h : m.Distinct) (id : Int) : (m.erase id).Distinct :=
  h.sublist (List.filter_sublist.map Prod.fst)

theorem Distinct.insert (h : m.Distinct) (id : Int) (value : α) : (m.insert id value).Distinct := by
  refine List.nodup_cons.mpr ⟨fun hm => ?_, h.erase id⟩
  obtain ⟨entry, he, hid⟩ := List.mem_map.mp hm
  have hne := (List.mem_filter.mp he).2
  simp [hid] at hne

theorem mem_keys_iff {id : Int} : id ∈ m.pairs.map Prod.fst ↔ (m.get? id).isSome = true := by
  unfold get?
  induction m.pairs with
  | nil => simp
  | cons entry rest ih =>
    obtain ⟨j, value⟩ := entry
    rw [lookup_cons, List.map_cons, List.mem_cons]
    by_cases hid : id = j
    · simp [hid]
    · simp [hid, ih]

end IdMap

namespace Stage

variable {s start : Store} {past : Past} {run : Int} {p : Stage}

theorem distinct_kept : Kept fun p => p.known.unclaimed.Distinct where
  counting _ _ h := h
  vertex v h := by
    cases v with
    | range id span => exact h.insert id _
    | bucket kind id =>
      simp only [Stage.vertex, learn_learnKind]
      exact h
    | _ => exact h
  claim id _ h := by
    unfold Stage.claim
    split
    next => exact h
    next => exact h.erase id
  next outV inV h := by
    unfold Stage.next
    split
    next => exact h
    next =>
      split
      next => exact h.insert outV _
      next => exact h
      next => split <;> exact h
  moniker _ _ h := h
  package _ _ h := h
  bucket kind outV inV h := by
    simp only [Stage.bucket, learn_learnKind]
    split <;> exact h
  hover _ _ h := h
  item bucket property id h := by
    unfold Stage.item
    split <;> exact h

theorem Recalls.size_unclaimed (h : Recalls s past p) (hd : p.known.unclaimed.Distinct)
    (hn : (past.ranges.map Prod.fst).Nodup) :
    p.known.unclaimed.size = past.ranges.countP fun v => (past.owner? s v.1).isNone := by
  have ha := Past.accounts s hn
  have hnodup : ((past.ranges.filter fun v => (past.owner? s v.1).isNone).map Prod.fst).Nodup :=
    hn.sublist (List.filter_sublist.map Prod.fst)
  have hperm : (p.known.unclaimed.pairs.map Prod.fst).Perm
      ((past.ranges.filter fun v => (past.owner? s v.1).isNone).map Prod.fst) := by
    refine (List.perm_ext_iff_of_nodup hd hnodup).mpr fun id => ?_
    rw [IdMap.mem_keys_iff, h.waiting id, ha.waiting id, List.mem_map]
    constructor
    · intro hw
      cases ho : past.owner? s id with
      | some document => simp [ho] at hw
      | none =>
        cases hs : past.span? id with
        | none => simp [ho, hs] at hw
        | some span =>
          refine ⟨(id, span), List.mem_filter.mpr ⟨(Past.mem_ranges_iff hn).mpr hs, ?_⟩, rfl⟩
          rw [ho]
          rfl
    · rintro ⟨v, hv, rfl⟩
      obtain ⟨hm, hnone⟩ := List.mem_filter.mp hv
      have hs := (Past.mem_ranges_iff hn).mp hm
      rw [Option.isNone_iff_eq_none] at hnone
      simp [hnone, hs]
  have hlength := hperm.length_eq
  rw [List.length_map, List.length_map, ← List.countP_eq_length_filter] at hlength
  exact hlength

end Stage

/-- The ranges in the documents of a run. -/
def Store.rangesIn (s : Store) (run : Int) : List Range :=
  (s.ranges.rows.filter fun r =>
    s.documents.holds r.2.document fun d => d.run == run).map Prod.snd

theorem Table.rows_insertAll_new {α : Type} (t : Table α) (rows : List α) :
    ∃ new, (t.insertAll rows).rows = t.rows ++ new ∧ new.map Prod.snd = rows := by
  induction rows generalizing t with
  | nil => exact ⟨[], (List.append_nil _).symm, rfl⟩
  | cons row rest ih =>
    obtain ⟨new, hrows, hnew⟩ := ih (t.insert row)
    refine ⟨(t.last + 1, row) :: new, ?_, by rw [List.map_cons, hnew]⟩
    rw [Table.insertAll, List.foldl_cons]
    exact hrows.trans (by rw [Table.rows_insert, List.append_assoc, List.singleton_append])

namespace Stage

variable {s : Store} {past : Past} {p : Stage} {about : RunMeta} {createdAt : Int}

theorem Abides.rangesIn (h : Abides s (s.withRun about createdAt) (s.runs.last + 1) past p)
    (hs : s.Scoped) (hn : (past.ranges.map Prod.fst).Nodup) :
    p.store.rangesIn (s.runs.last + 1) = ((past.placed s).map Prod.snd).reverse := by
  have hkeeps := Store.keeps_writes h.grounded.path
  obtain ⟨new, hrows, hnew⟩ :=
    Table.rows_insertAll_new s.ranges ((past.placed s).map Prod.snd).reverse
  have hold : s.ranges.rows.filter (fun r =>
      p.store.documents.holds r.2.document fun d => d.run == s.runs.last + 1) = [] := by
    refine List.filter_eq_nil_iff.mpr fun r hr hin => ?_
    obtain ⟨run, hrun, -⟩ := hs.ranges r hr
    obtain ⟨d, hd, rfl⟩ := Table.view_eq_some_iff.mp hrun
    obtain ⟨d', hd', heq⟩ := Table.holds_iff.mp hin
    cases Option.some.inj ((hkeeps.documents hd).symm.trans hd')
    exact hs.ordered.runs.ne_next (hs.documents _ (Table.mem_of_get? hd)) (beq_iff_eq.mp heq)
  have hall : new.filter (fun r =>
      p.store.documents.holds r.2.document fun d => d.run == s.runs.last + 1) = new := by
    refine List.filter_eq_self.mpr fun r hr => ?_
    have hm : r.2 ∈ ((past.placed s).map Prod.snd).reverse :=
      hnew ▸ List.mem_map.mpr ⟨r, hr, rfl⟩
    obtain ⟨entry, he, hrange⟩ := List.mem_map.mp (List.mem_reverse.mp hm)
    obtain ⟨row, hrow⟩ := Past.rowIn?_of_mem s.ranges.last (Past.accounts s hn).keys he
    have hclaimed := (h.recalls.stored entry.1).trans hrow
    have hin := (h.grounded.names.claimed hclaimed).1.ofRun
    rw [h.awaits.run] at hin
    obtain ⟨d, hd, hrun⟩ := Table.view_eq_some_iff.mp hin
    rw [← hrange]
    exact Table.holds_iff.mpr ⟨d, hd, beq_iff_eq.mpr hrun⟩
  have hranges : p.store.ranges.rows = s.ranges.rows ++ new := by
    rw [h.recalls.ranges]
    exact hrows
  unfold Store.rangesIn
  rw [hranges, List.filter_append, hold, hall, List.nil_append, hnew]

end Stage

section Dumps

variable {access : Access} {s t : Store} {settings : IngestSettings} {about : RunMeta}
  {stream : ByteStream} {report : Report}

theorem ingest_ok_dropped (hi : ingest settings about stream access s = (.ok report, t)) :
    report.droppedRanges = (stageAfter about access s stream.lines).known.unclaimed.size := by
  obtain ⟨stored, mid, hg, hreport, -⟩ := ingest_ok_graph hi
  obtain ⟨-, p, hp, hclosing, -⟩ := ingestGraph_stage hg
  have hstage : stageAfter about access s stream.lines = p := hp
  rw [hstage, hreport, ← hclosing]
  rfl

/-- If no id is used for two ranges, a run has one row for each range that a document has claimed,
with the document of the first claim and the result set of the last `next` edge, and no other row;
the ranges without a document are reported as dropped.  The numbers of documents and result sets are
those that their vertices have got. -/
theorem ranges_stored_once (h : Reachable s)
    (hn : ((stream.records.filterMap Element.range?).map Prod.fst).Nodup)
    (hi : ingest settings about stream access s = (.ok report, t)) :
    let past : Past := stream.records.reverse
    (t.rangesIn report.run).Perm
      ((stream.records.filterMap Element.range?).filterMap fun v =>
        (past.owner? s v.1).map fun document => ⟨document, v.2, past.linked? s v.1⟩) ∧
    report.droppedRanges = (stream.records.filterMap Element.range?).countP
      (fun v => (past.owner? s v.1).isNone) ∧
    ∀ before v after, stream.records = before ++ .vertex v :: after →
      t.HasRowOf s report.run before.reverse v := by
  intro past
  have hs := h.scoped
  have ha := abides_stageAfter hs about access stream
  obtain ⟨hrun, -, ht⟩ := ingest_ok_stage hi
  have hranges : past.ranges = (stream.records.filterMap Element.range?).reverse :=
    List.filterMap_reverse
  have hn' : (past.ranges.map Prod.fst).Nodup := by
    rw [hranges, List.map_reverse, List.nodup_reverse]
    exact hn
  refine ⟨?_, ?_, ?_⟩
  · have hrows : t.rangesIn report.run = ((past.placed s).map Prod.snd).reverse := by
      rw [ht, hrun]
      exact ha.rangesIn hs hn'
    have hperm := (Past.placed_perm s hn').map Prod.snd
    simp only [hranges, List.map_filterMap, Option.map_map, Function.comp_def] at hperm
    rw [hrows]
    exact (List.reverse_perm _).trans (hperm.trans ((List.reverse_perm _).filterMap _))
  · have hd : (stageAfter about access s stream.lines).known.unclaimed.Distinct :=
      Stage.distinct_kept.lines stream.lines List.nodup_nil
    rw [ingest_ok_dropped hi, ha.recalls.size_unclaimed hd hn', hranges, List.countP_reverse]
  · exact rows_declared hs hi

end Dumps

/-- A range that is listed twice and linked before and after that, and one that no document has. -/
def linkedLines : List (List UInt8) :=
  ["[\"vertex\",\"document\",1,\"a\",null]", "[\"vertex\",\"range\",2,[0,4],[0,7]]",
    "[\"vertex\",\"resultSet\",3]", "[\"vertex\",\"resultSet\",4]", "[\"edge\",\"next\",2,3]",
    "[\"vertex\",\"range\",5,[1,0],[1,3]]", "[\"edge\",\"contains\",1,[2,2]]",
    "[\"edge\",\"contains\",9,[5]]", "[\"edge\",\"next\",2,4]"].map fun line => line.toUTF8.toList

def linkedReport : Report where
  run := 1
  lines := 9
  vertices := 5
  edges := 4
  danglingReferences := 2
  droppedRanges := 1
  derivation := some ⟨0, 0, 0, 0⟩

def linkedStore : Store where
  runs := ⟨1, [(1, { repo := none, commit := none, createdAt := 0 })]⟩
  documents := ⟨1, [(1, ⟨1, "a", none⟩)]⟩
  resultSets := ⟨2, [(1, { run := 1 }), (2, { run := 1 })]⟩
  ranges := ⟨1, [(1, ⟨1, .ofCoords 0 4 0 7, some 2⟩)]⟩

/-- The range has one row, and the last of its result sets. -/
theorem linked_range_stored :
    (linkedStore.rangesIn 1).Perm [⟨1, .ofCoords 0 4 0 7, some 2⟩] ∧
      linkedReport.droppedRanges = 1 := by
  have hi : ingest {} {} (.ofLines linkedLines) {} .empty = (.ok linkedReport, linkedStore) := by
    decide +kernel
  have hread : (((ByteStream.ofLines linkedLines).records.filterMap Element.range?).map
        Prod.fst).Nodup ∧
      (((ByteStream.ofLines linkedLines).records.filterMap Element.range?).filterMap fun v =>
        (Past.owner? .empty (ByteStream.ofLines linkedLines).records.reverse v.1).map fun document =>
          (⟨document, v.2, Past.linked? .empty (ByteStream.ofLines linkedLines).records.reverse
            v.1⟩ : Range)) = [⟨1, .ofCoords 0 4 0 7, some 2⟩] ∧
      ((ByteStream.ofLines linkedLines).records.filterMap Element.range?).countP
        (fun v => (Past.owner? .empty (ByteStream.ofLines linkedLines).records.reverse
          v.1).isNone) = 1 := by decide +kernel
  obtain ⟨hperm, hdropped, -⟩ := ranges_stored_once .empty hread.1 hi
  rw [hread.2.1] at hperm
  exact ⟨hperm, hdropped.trans hread.2.2⟩

end SymbolAtlas
