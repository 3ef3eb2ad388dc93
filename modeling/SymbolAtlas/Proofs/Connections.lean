import SymbolAtlas.Proofs.Mirror

namespace SymbolAtlas

namespace Stage

variable {base : Store} {past : Past} {claims : List Claim} {definitions : Int → List Location}
  {p : Stage}

theorem Agrees.resolve (h : Agrees past claims definitions p) (id : Int) :
    p.known.resultSetOf? id = (past.resolve? id).bind p.known.resultSets.get? := by
  have hs := h.resultSets id
  unfold Known.resultSetOf? Past.resolve?
  cases hr : p.known.resultSets.get? id with
  | some row =>
    have hp : past.hasResultSet id = true := by rw [← hs, IdMap.has, hr]; rfl
    rw [if_pos hp, Option.bind_some, hr]
  | none =>
    have hp : ¬ past.hasResultSet id = true := by simp [← hs, IdMap.has, hr]
    rw [if_neg hp]
    cases hc : p.known.claimed.get? id with
    | some range => exact (h.claimed hc).2
    | none =>
      cases hu : p.known.unclaimed.get? id with
      | some range => exact (h.unclaimed hu).2.2
      | none =>
        cases hl : past.resultSet? id with
        | none => rfl
        | some j =>
          have := h.seen (Past.resultSet?_seen hl).1
          simp [IdMap.has, hc, hu] at this

theorem Agrees.resolve_none (h : Agrees past claims definitions p) {id : Int}
    (hr : p.known.resultSetOf? id = none) : past.resolve? id = none := by
  cases hp : past.resolve? id with
  | none => rfl
  | some j =>
    obtain ⟨row, hj⟩ := Option.isSome_iff_exists.mp
      ((h.resultSets j).trans (Past.resolve?_seen hp))
    rw [h.resolve, hp, Option.bind_some, hj] at hr
    simp at hr

theorem Agrees.modified (h : Agrees past claims definitions p) {outV row : Int}
    (hr : p.known.resultSetOf? outV = some row) (change : ResultSet → ResultSet) {id row' : Int}
    (hid : p.known.resultSets.get? id = some row') :
    ∃ a, (p.store.resultSets.modify row change).get? row' =
        some (if past.resolve? outV = some id then change a else a) ∧
      a.hover.bind (p.store.hovers.view Hover.contents) = past.hover? id ∧
      a.definitions = past.definitions? id := by
  obtain ⟨a, ha, hc⟩ := h.contents hid
  obtain ⟨j, hj, hrow⟩ := Option.bind_eq_some_iff.mp ((h.resolve outV).symm.trans hr)
  have hiff : row' = row ↔ past.resolve? outV = some id := by
    rw [hj, Option.some.injEq]
    constructor
    · rintro rfl
      exact h.resultSetOnce hid hrow
    · rintro rfl
      exact Option.some.inj (hid.symm.trans hrow)
  refine ⟨a, ?_, hc⟩
  rw [Table.get?_modify, ha, Option.map_some]
  simp only [hiff]

theorem hover?_hover (past : Past) (outV inV id : Int) :
    Past.hover? (.edge (.hover outV inV) :: past) id =
      (if past.resolve? outV = some id then past.text? inV else none).or (past.hover? id) := rfl

theorem Agrees.hover (h : Agrees past claims definitions p) (hg : p.Grounded base)
    (outV inV : Int) :
    Agrees (.edge (.hover outV inV) :: past) claims definitions (p.edge (.hover outV inV)) := by
  have htext := h.texts inV
  simp only [Stage.edge]
  split
  next row hover hr hh =>
    rw [hh, Option.bind_some] at htext
    obtain ⟨hov, hget, -⟩ := Table.view_eq_some_iff.mp (hg.names.hovers hh)
    have hview : p.store.hovers.view Hover.contents hover = some hov.contents :=
      Table.view_eq_some_iff.mpr ⟨hov, hget, rfl⟩
    refine { h with contents := fun {id row'} hid => ?_ }
    obtain ⟨a, ha, hc, hd⟩ := h.modified hr (fun r => { r with hover := some hover }) hid
    refine ⟨_, ha, ?_, by split <;> exact hd⟩
    rw [hover?_hover, ← htext]
    split
    next =>
      rw [hview]
      exact hview
    next => exact hc
  next hnone =>
    -- One of the ends is missing, so that the edge says nothing.
    have hsilent : ∀ id,
        (if past.resolve? outV = some id then past.text? inV else none) = none := by
      intro id
      cases hr : p.known.resultSetOf? outV with
      | none => rw [h.resolve_none hr, if_neg (by simp)]
      | some row =>
        cases hh : p.known.hovers.get? inV with
        | none =>
          rw [hh] at htext
          rw [← htext]
          split <;> rfl
        | some hover => exact absurd hh (hnone row hover hr)
    refine { h with contents := fun {id row} hid => ?_ }
    rw [hover?_hover, hsilent]
    exact h.contents hid

theorem definitions?_bucket (past : Past) (outV inV id : Int) :
    Past.definitions? (.edge (.bucket .definitions outV inV) :: past) id =
      (if past.resolve? outV = some id then some inV else none).or (past.definitions? id) := rfl

theorem Agrees.bucket (h : Agrees past claims definitions p) (kind : BucketKind)
    (outV inV : Int) :
    Agrees (.edge (.bucket kind outV inV) :: past) claims definitions
      (p.edge (.bucket kind outV inV)) := by
  have hk : ∀ j, Past.kind? [.edge (.bucket kind outV inV)] j =
      if j = inV then some kind else none := by
    intro j
    simp only [Past.kind?, Past.earliest]
    split <;> simp_all
  simp only [Stage.edge, Stage.bucket, learn_learnKind]
  split
  next hr =>
    have hnone : past.resolve? outV = none := h.resolve_none hr
    refine { h with
      kinds := fun j => h.learnKind inV j kind hk
      contents := fun {id row} hid => ?_ }
    obtain ⟨a, ha, hc, hd⟩ := h.contents hid
    refine ⟨a, ha, hc, hd.trans ?_⟩
    cases kind with
    | definitions =>
      rw [definitions?_bucket, hnone, if_neg (by simp)]
      rfl
    | references => rfl
    | typeDefinition => rfl
    | implementation => rfl
  next row hr =>
    have hr : p.known.resultSetOf? outV = some row := hr
    refine { h with
      kinds := fun j => h.learnKind inV j kind hk
      contents := fun {id row'} hid => ?_ }
    obtain ⟨a, ha, hc, hd⟩ := h.modified hr (fun r => r.setBucket inV kind) hid
    refine ⟨_, ha, ?_, ?_⟩
    · split
      next =>
        have hb := (Store.setBucket_other a inV kind).2.1
        exact (congrArg (fun link => Option.bind link _) hb).trans hc
      next => exact hc
    · cases kind with
      | definitions =>
        rw [definitions?_bucket]
        split
        next => rfl
        next => exact hd
      | references => split <;> exact hd
      | typeDefinition => split <;> exact hd
      | implementation => split <;> exact hd

theorem Agrees.moniker (h : Agrees past claims definitions p) (outV inV : Int) :
    Agrees (.edge (.moniker outV inV) :: past) claims definitions
      (p.edge (.moniker outV inV)) := by
  simp only [Stage.edge]
  split
  next row moniker hr hm =>
    refine { h with contents := fun {id row'} hid => ?_ }
    obtain ⟨a, ha, hc, hd⟩ := h.modified hr (fun r => { r with moniker := some moniker }) hid
    exact ⟨_, ha, by split <;> exact hc, by split <;> exact hd⟩
  next => exact { h with }

theorem Agrees.package (h : Agrees past claims definitions p) (outV inV : Int) :
    Agrees (.edge (.packageInformation outV inV) :: past) claims definitions
      (p.edge (.packageInformation outV inV)) := by
  simp only [Stage.edge]
  split
  next => exact { h with }
  next => exact { h with }

theorem resultSet?_next (past : Past) (outV inV id : Int) :
    Past.resultSet? (.edge (.next outV inV) :: past) id =
      (if id = outV ∧ (past.span? id).isSome ∧ past.hasResultSet inV then some inV else none).or
        (past.resultSet? id) := rfl

theorem Agrees.next_missing (h : Agrees past claims definitions p) {outV inV : Int}
    (hm : (past.span? outV).isSome = false ∨ past.hasResultSet inV = false) :
    Agrees (.edge (.next outV inV) :: past) claims definitions p := by
  have hsame : ∀ id, Past.resultSet? (.edge (.next outV inV) :: past) id = past.resultSet? id := by
    intro id
    rw [resultSet?_next, if_neg]
    · rfl
    · rintro ⟨rfl, hs, hr⟩
      rcases hm with hm | hm
      · simp [hm] at hs
      · simp [hm] at hr
  refine { h with unclaimed := fun {id range} hu => ?_, claimed := fun {id range} hc => ?_ }
  · rw [hsame]
    exact h.unclaimed hu
  · rw [hsame]
    exact h.claimed hc

theorem resultSet?_linked {outV inV : Int} (hs : (past.span? outV).isSome = true)
    (hr : past.hasResultSet inV = true) (id : Int) :
    Past.resultSet? (.edge (.next outV inV) :: past) id =
      if id = outV then some inV else past.resultSet? id := by
  rw [resultSet?_next]
  by_cases he : id = outV
  · subst he
    simp [hs, hr]
  · simp [he]

theorem Agrees.next_unclaimed (h : Agrees past claims definitions p) {outV inV row : Int}
    {range : UnclaimedRange} (hr : p.known.resultSets.get? inV = some row)
    (hu : p.known.unclaimed.get? outV = some range) :
    Agrees (.edge (.next outV inV) :: past) claims definitions
      (p.learn (fun k =>
        { k with unclaimed := k.unclaimed.insert outV { range with resultSet := some row } })
        p.store) := by
  obtain ⟨hspan, hfree, -⟩ := h.unclaimed hu
  have hset : past.hasResultSet inV = true := by rw [← h.resultSets, IdMap.has, hr]; rfl
  have hseen : (past.span? outV).isSome = true := by rw [hspan]; rfl
  have hlink := resultSet?_linked hseen hset
  refine { h with
    unclaimed := fun {id range'} hu' => ?_
    claimed := fun {id range'} hc => ?_
    seen := fun {id} hs => ?_ }
  · change (p.known.unclaimed.insert outV _).get? id = some range' at hu'
    rw [IdMap.get?_insert] at hu'
    rw [hlink]
    split at hu'
    next he =>
      cases Option.some.inj hu'
      rw [he, if_pos rfl]
      exact ⟨hspan, hfree, hr.symm⟩
    next he =>
      rw [if_neg he]
      exact h.unclaimed hu'
  · obtain ⟨⟨c, hc', he⟩, hset'⟩ := h.claimed hc
    rw [hlink, if_neg fun heq => hfree c hc' (he.trans heq)]
    exact ⟨⟨c, hc', he⟩, hset'⟩
  · change (p.known.unclaimed.insert outV _).has id = true ∨ p.known.claimed.has id = true
    rw [IdMap.has_insert]
    exact (h.seen hs).imp_left fun hw => by simp [hw]

theorem ranges_settingResultSet (s : Store) (run range resultSet : Int) :
    ((s.settingResultSet range resultSet).only run).ranges.rows =
      (s.only run).ranges.rows.map fun r =>
        if r.1 = range then (r.1, { r.2 with resultSet := some resultSet }) else r := by
  simp only [Store.only, Table.part, Table.keep, Store.settingResultSet, Table.modify,
    List.filter_map]
  congr 1
  refine List.filter_congr fun r _ => ?_
  simp only [Function.comp]
  split <;> rfl

theorem location?_settingResultSet (s : Store) (range resultSet document id : Int) :
    (s.settingResultSet range resultSet).location? document id = s.location? document id := by
  simp only [Store.location?, Store.settingResultSet, Table.get?_modify]
  cases s.ranges.get? id with
  | none => rfl
  | some r =>
    simp only [Option.map_some]
    split <;> rfl

theorem Agrees.rows_linked (h : Agrees past claims definitions p) {outV : Int}
    {range : ClaimedRange} (hc : p.known.claimed.get? outV = some range) (row : Int) :
    List.Forall₂
      (Reads past.span? (p.known.claimed.insert outV { range with resultSet := some row })
        p.store.documents)
      ((p.store.settingResultSet range.row row).only p.run).ranges.rows claims := by
  rw [ranges_settingResultSet, List.forall₂_map_left_iff]
  refine h.rows.imp fun r c hrow => ?_
  by_cases he : c.range = outV
  · have hrow' := hrow.known
    rw [he, hc] at hrow'
    cases Option.some.inj hrow'
    rw [if_pos rfl]
    refine ⟨?_, hrow.uri, hrow.span, hrow.seen⟩
    exact (IdMap.get?_insert _ _ _ _).trans (if_pos he)
  · rw [if_neg fun heq => he (h.claimedOnce hc hrow.known heq)]
    refine { hrow with known := ?_ }
    exact ((IdMap.get?_insert _ _ _ _).trans (if_neg he)).trans hrow.known

theorem Agrees.next_claimed (h : Agrees past claims definitions p) {outV inV row : Int}
    {range : ClaimedRange} (hr : p.known.resultSets.get? inV = some row)
    (hu : p.known.unclaimed.get? outV = none) (hc : p.known.claimed.get? outV = some range) :
    Agrees (.edge (.next outV inV) :: past) claims definitions
      (p.learn (fun k =>
        { k with claimed := k.claimed.insert outV { range with resultSet := some row } })
        (p.store.settingResultSet range.row row)) := by
  obtain ⟨⟨c, hcl, hrange⟩, -⟩ := h.claimed hc
  have hset : past.hasResultSet inV = true := by rw [← h.resultSets, IdMap.has, hr]; rfl
  have hseen : (past.span? outV).isSome = true := hrange ▸ h.claim_seen hcl
  have hlink := resultSet?_linked hseen hset
  refine { h with
    unclaimed := fun {id range'} hu' => ?_
    claimed := fun {id range'} hc' => ?_
    claimedOnce := IdMap.once_insert h.claimedOnce ?_
    seen := fun {id} hs => ?_
    rows := h.rows_linked hc row
    definitionItems := fun bucket => ?_ }
  · have hne : id ≠ outV := fun he => by
      have hu' : p.known.unclaimed.get? id = some range' := hu'
      rw [he, hu] at hu'
      simp at hu'
    rw [hlink, if_neg hne]
    exact h.unclaimed hu'
  · change (p.known.claimed.insert outV _).get? id = some range' at hc'
    rw [IdMap.get?_insert] at hc'
    rw [hlink]
    split at hc'
    next he =>
      cases Option.some.inj hc'
      rw [he, if_pos rfl]
      exact ⟨⟨c, hcl, hrange⟩, hr.symm⟩
    next he =>
      rw [if_neg he]
      exact h.claimed hc'
  · intro j old hne hj he
    exact hne (h.claimedOnce hc hj he)
  · change p.known.unclaimed.has id = true ∨ (p.known.claimed.insert outV _).has id = true
    rw [IdMap.has_insert]
    exact (h.seen hs).imp_right fun hc' => by simp [hc']
  · rw [← h.definitionItems bucket]
    exact definitionsIn_congr rfl fun r _ => location?_settingResultSet _ _ _ _ _

theorem Agrees.next (h : Agrees past claims definitions p) (outV inV : Int) :
    Agrees (.edge (.next outV inV) :: past) claims definitions (p.edge (.next outV inV)) := by
  simp only [Stage.edge, Stage.next]
  split
  next hr =>
    refine (h.next_missing (.inr ?_)).dangling
    rw [← h.resultSets, IdMap.has, hr]
    rfl
  next row hr =>
    split
    next range _ hu => exact h.next_unclaimed hr hu
    next range hu hc => exact h.next_claimed hr hu hc
    next hu hc =>
      have hmissing : (past.span? outV).isSome = false := by
        rw [Bool.eq_false_iff]
        intro hs
        have := h.seen hs
        simp [IdMap.has, hu, hc] at this
      split
      next => exact (h.next_missing (.inl hmissing)).ignored
      next => exact (h.next_missing (.inl hmissing)).dangling

theorem Agrees.claim_dangling (h : Agrees past claims definitions p) {id : Int}
    (hr : p.known.unclaimed.get? id = none) (uri : String) : past.claim uri claims id = claims := by
  unfold Past.claim
  split
  next span hs =>
    have hseen : (past.span? id).isSome = true := by rw [hs]; rfl
    rcases h.seen hseen with hw | hc
    · simp [IdMap.has, hr] at hw
    · obtain ⟨range, hrange⟩ := Option.isSome_iff_exists.mp hc
      obtain ⟨⟨c, hcl, rfl⟩, -⟩ := h.claimed hrange
      have hany : (claims.any fun d => d.range == c.range) = true :=
        List.any_eq_true.mpr ⟨c, hcl, beq_self_eq_true c.range⟩
      exact if_pos hany
  next => rfl

theorem Agrees.claim_waiting (h : Agrees past claims definitions p) {id : Int}
    {range : UnclaimedRange} (hr : p.known.unclaimed.get? id = some range) (uri : String) :
    past.claim uri claims id = claims ++ [⟨id, uri, range.span⟩] := by
  obtain ⟨hspan, hfree, -⟩ := h.unclaimed hr
  unfold Past.claim
  simp only [hspan]
  refine if_neg fun hany => ?_
  obtain ⟨c, hc, he⟩ := List.any_eq_true.mp hany
  exact hfree c hc (beq_iff_eq.mp he)

theorem ranges_withRange {s : Store} {run document : Int}
    (hd : s.documentRun? document = some run) (span : Span) (resultSet : Option Int) :
    ((s.withRange document span resultSet).only run).ranges.rows =
      (s.only run).ranges.rows ++ [(s.ranges.last + 1, ⟨document, span, resultSet⟩)] := by
  have hp : (s.documentRun? document == some run) = true := by rw [hd]; exact beq_self_eq_true _
  simp only [Store.only, Table.part, Table.keep, Store.withRange, Table.rows_insert,
    List.filter_append]
  congr 1
  exact List.filter_cons_of_pos hp

theorem location?_withRange {s : Store} (h : s.Scoped) (document : Int) (span : Span)
    (resultSet : Option Int) {r : Int × Item} (hr : r ∈ s.definitionItems.rows) :
    (s.withRange document span resultSet).location? r.2.document r.2.range =
      s.location? r.2.document r.2.range := by
  obtain ⟨range, d, hrange, -, hd, -⟩ := (h.definitionItems r hr).rows
  have hrange' : (s.withRange document span resultSet).ranges.get? r.2.range = some range :=
    Table.get?_insert_of_some hrange
  simp only [Store.location?, hrange, hrange']
  rfl

theorem Agrees.claimed_none (h : Agrees past claims definitions p) {id : Int}
    (hfree : ∀ c ∈ claims, c.range ≠ id) : p.known.claimed.get? id = none := by
  rw [Option.eq_none_iff_forall_ne_some]
  intro old hold
  obtain ⟨⟨c, hc, he⟩, -⟩ := h.claimed hold
  exact hfree c hc he

theorem Agrees.rows_claimed (h : Agrees past claims definitions p) (hg : p.Grounded base)
    {outV document id : Int} {uri : String} {range : UnclaimedRange}
    (hd : p.known.documents.get? outV = some document) (hu : past.uri? outV = some uri)
    (hr : p.known.unclaimed.get? id = some range) :
    List.Forall₂
      (Reads past.span?
        (p.known.claimed.insert id ⟨p.store.ranges.last + 1, document, range.resultSet⟩)
        p.store.documents)
      ((p.store.withRange document range.span range.resultSet).only p.run).ranges.rows
      (claims ++ [⟨id, uri, range.span⟩]) := by
  obtain ⟨hspan, hfree, -⟩ := h.unclaimed hr
  have hview : p.store.documents.view Document.uri document = some uri := by
    rw [← hu, ← h.documents, hd]
    rfl
  rw [ranges_withRange (hg.names.documents hd)]
  refine List.rel_append (h.rows.imp fun r c hrow => ?_) (.cons ?_ .nil)
  · have hne : c.range ≠ id := fun he => by
      have hk := hrow.known
      rw [he, h.claimed_none hfree] at hk
      simp at hk
    exact { hrow with
      known := ((IdMap.get?_insert _ _ _ _).trans (if_neg hne)).trans hrow.known }
  · refine ⟨(IdMap.get?_insert _ _ _ _).trans (if_pos rfl), hview, rfl, ?_⟩
    rw [hspan]
    rfl

theorem Agrees.claim (h : Agrees past claims definitions p) (hg : p.Grounded base)
    {outV document : Int} {uri : String} (hd : p.known.documents.get? outV = some document)
    (hu : past.uri? outV = some uri) (id : Int) :
    Agrees past (past.claim uri claims id) definitions (p.claim document id) := by
  unfold Stage.claim
  split
  next hr =>
    rw [h.claim_dangling hr]
    exact h.dangling
  next range hr =>
    rw [h.claim_waiting hr]
    have hlink := (h.unclaimed hr).2.2
    have hfresh : ∀ {j old}, j ≠ id → p.known.claimed.get? j = some old →
        old.row ≠ p.store.ranges.last + 1 := by
      intro j old _ hold
      exact hg.keeps.ordered.ranges.ne_next
        (Table.has_of_view (hg.names.claimed hold).1.ofDocument)
    refine { h with
      unclaimed := fun {j range'} hj => ?_
      claimed := fun {j range'} hj => ?_
      claimedOnce := IdMap.once_insert h.claimedOnce hfresh
      seen := fun {j} hs => ?_
      rows := h.rows_claimed hg hd hu hr
      definitionItems := fun bucket => ?_ }
    · change (p.known.unclaimed.erase id).get? j = some range' at hj
      rw [IdMap.get?_erase] at hj
      split at hj
      next => simp at hj
      next hne =>
        obtain ⟨hs, hf, hl⟩ := h.unclaimed hj
        refine ⟨hs, fun c hc => ?_, hl⟩
        rcases List.mem_append.mp hc with hc | hc
        · exact hf c hc
        · rw [List.mem_singleton.mp hc]
          exact fun he => hne he.symm
    · change (p.known.claimed.insert id _).get? j = some range' at hj
      rw [IdMap.get?_insert] at hj
      split at hj
      next he =>
        cases Option.some.inj hj
        subst he
        exact ⟨⟨_, List.mem_append_right _ (List.mem_singleton_self _), rfl⟩, hlink⟩
      next =>
        obtain ⟨⟨c, hc, he⟩, hl⟩ := h.claimed hj
        exact ⟨⟨c, List.mem_append_left _ hc, he⟩, hl⟩
    · change (p.known.unclaimed.erase id).has j = true ∨ (p.known.claimed.insert id _).has j = true
      unfold IdMap.has
      rw [IdMap.get?_insert, IdMap.get?_erase]
      split
      next => exact .inr rfl
      next => exact h.seen hs
    · rw [← h.definitionItems bucket]
      exact definitionsIn_congr rfl fun r hr => location?_withRange hg.keeps _ _ _ hr

theorem Agrees.contains (h : Agrees past claims definitions p) (hg : p.Grounded base)
    {outV document : Int} {uri : String} (hd : p.known.documents.get? outV = some document)
    (hu : past.uri? outV = some uri) (ids : List Int) :
    Agrees past (ids.foldl (past.claim uri) claims) definitions
      (ids.foldl (Stage.claim document) p) := by
  induction ids generalizing claims p with
  | nil => exact h
  | cons id ids ih =>
    refine ih (h.claim hg hd hu id) (grounded_claim id hd hg) ?_
    rw [claim_documents]
    exact hd

theorem Mirrors.contains (h : Mirrors past p) (hg : p.Grounded base) (outV : Int)
    (inVs : List Int) :
    Mirrors (.edge (.contains outV inVs) :: past) (p.edge (.contains outV inVs)) := by
  have huri := Agrees.documents h outV
  unfold Mirrors
  simp only [Stage.edge, Past.claims]
  cases hd : p.known.documents.get? outV with
  | none =>
    rw [hd] at huri
    rw [← huri]
    exact { Agrees.dangling h with }
  | some document =>
    obtain ⟨d, hget, -⟩ := Table.view_eq_some_iff.mp (hg.names.documents hd)
    have hu : past.uri? outV = some d.uri := by
      rw [← huri, hd]
      exact Table.view_eq_some_iff.mpr ⟨d, hget, rfl⟩
    rw [hu]
    exact { Agrees.contains h hg hd hu inVs with }

theorem Agrees.location (h : Agrees past claims definitions p) (hg : p.Grounded base) {id : Int}
    {range : ClaimedRange} (hc : p.known.claimed.get? id = some range) :
    ∃ l, p.store.location? range.document range.row = some l ∧
      Claim.locationIn? claims id = some l := by
  obtain ⟨⟨c, hcl, he⟩, -⟩ := h.claimed hc
  have hfind : (claims.find? fun c => c.range == id).isSome = true :=
    List.find?_isSome.mpr ⟨c, hcl, beq_iff_eq.mpr he⟩
  obtain ⟨first, hfirst⟩ := Option.isSome_iff_exists.mp hfind
  obtain ⟨r, hr, hrow⟩ := exists_row h.rows (List.mem_of_find?_eq_some hfirst)
  have hid : first.range = id := by simpa using List.find?_some hfirst
  have hknown := hrow.known
  rw [hid, hc] at hknown
  cases Option.some.inj hknown
  have hget : p.store.ranges.get? r.1 = some r.2 :=
    hg.keeps.ordered.ranges.get?_eq_some_iff.mpr (List.mem_filter.mp hr).1
  obtain ⟨d, hd, huri⟩ := Table.view_eq_some_iff.mp hrow.uri
  refine ⟨⟨first.uri, first.span⟩, ?_, by simp only [Claim.locationIn?, hfirst, Option.map_some]⟩
  simp only [Store.location?, hd, hget, ← huri, ← hrow.span]
  rfl

theorem Agrees.location_none (h : Agrees past claims definitions p) {id : Int}
    (hc : p.known.claimed.get? id = none) : Claim.locationIn? claims id = none := by
  have hfind : (claims.find? fun c => c.range == id) = none := by
    rw [List.find?_eq_none]
    intro c hcl he
    obtain ⟨r, -, hrow⟩ := exists_row h.rows hcl
    have hknown := hrow.known
    rw [beq_iff_eq.mp he, hc] at hknown
    simp at hknown
  simp only [Claim.locationIn?, hfind, Option.map_none]

/-- The definitions in every bucket, after an item edge has put more of them into one. -/
def addDefinitions (definitions : Int → List Location) (past : Past) (outV : Int)
    (property : Option String) (found : List Location) (bucket : Int) : List Location :=
  if outV = bucket ∧ past.routed outV property then definitions bucket ++ found
  else definitions bucket

theorem addDefinitions_nil (past : Past) (outV : Int) (property : Option String) :
    addDefinitions definitions past outV property [] = definitions := by
  funext bucket
  simp [addDefinitions]

theorem addDefinitions_append (past : Past) (outV : Int) (property : Option String)
    (found more : List Location) :
    addDefinitions (addDefinitions definitions past outV property found) past outV property more =
      addDefinitions definitions past outV property (found ++ more) := by
  funext bucket
  unfold addDefinitions
  split
  next => rw [List.append_assoc]
  next => rfl

theorem definitionsIn_withDefinition {s : Store} (item : Item) {l : Location}
    (hl : s.location? item.document item.range = some l) (bucket : Int) :
    (s.withDefinition item).definitionsIn item.run bucket =
      s.definitionsIn item.run bucket ++ if item.bucket = bucket then [l] else [] := by
  have hl' : (s.withDefinition item).location? item.document item.range = some l := hl
  unfold Store.definitionsIn
  rw [show (s.withDefinition item).definitionItems.rows =
    s.definitionItems.rows ++ [(s.definitionItems.last + 1, item)] from rfl, List.filterMap_append]
  congr 1
  by_cases hb : item.bucket = bucket
  · simp [hb, hl']
  · simp [hb]

theorem Agrees.item (h : Agrees past claims definitions p) (hg : p.Grounded base) (outV : Int)
    (property : Option String) (id : Int) :
    Agrees past claims
      (addDefinitions definitions past outV property (Claim.locationIn? claims id).toList)
      (p.item outV property id) := by
  have hroute : p.ingestion.toDefinitions outV property = past.routed outV property := by
    have hk : p.ingestion.known.kindOf? outV = past.kind? outV := h.kinds outV
    unfold Ingestion.toDefinitions Past.routed
    cases hp : past.kind? outV with
    | none => simp only [hk, hp]
    | some kind => cases kind <;> simp only [hk, hp]
  unfold Stage.item
  split
  next hc =>
    rw [h.location_none hc, Option.toList_none, addDefinitions_nil]
    exact h.dangling
  next range hc =>
    obtain ⟨l, hl, hread⟩ := h.location hg hc
    rw [hread, Option.toList_some, hroute]
    split
    next hd =>
      refine { h with definitionItems := fun bucket => ?_ }
      refine (definitionsIn_withDefinition ⟨p.run, outV, range.document, range.row⟩ hl
        bucket).trans ?_
      unfold addDefinitions
      rw [h.definitionItems bucket]
      by_cases hb : outV = bucket
      · rw [if_pos hb, if_pos ⟨hb, hd⟩]
      · rw [if_neg hb, if_neg fun hc => hb hc.1, List.append_nil]
    next hd =>
      refine { h with definitionItems := fun bucket => ?_ }
      unfold addDefinitions
      rw [if_neg fun hc => hd hc.2]
      exact h.definitionItems bucket

theorem Agrees.items (h : Agrees past claims definitions p) (hg : p.Grounded base) (outV : Int)
    (property : Option String) (ids : List Int) :
    Agrees past claims
      (addDefinitions definitions past outV property (ids.filterMap (Claim.locationIn? claims)))
      (ids.foldl (Stage.item outV property) p) := by
  induction ids generalizing definitions p with
  | nil =>
    rw [List.filterMap_nil, addDefinitions_nil]
    exact h
  | cons id ids ih =>
    have hrest := ih (h.item hg outV property id) (grounded_item outV property id hg)
    rw [addDefinitions_append] at hrest
    have hfound : (id :: ids).filterMap (Claim.locationIn? claims) =
        (Claim.locationIn? claims id).toList ++ ids.filterMap (Claim.locationIn? claims) := by
      rw [List.filterMap_cons]
      cases Claim.locationIn? claims id <;> rfl
    rw [hfound]
    exact hrest

/-- A connection is read as it is stored. -/
theorem Mirrors.edge (h : Mirrors past p) (hg : p.Grounded base) (e : Edge) :
    Mirrors (.edge e :: past) (p.edge e) := by
  cases e with
  | contains outV inVs => exact h.contains hg outV inVs
  | next outV inV => exact Agrees.next h outV inV
  | moniker outV inV => exact Agrees.moniker h outV inV
  | packageInformation outV inV => exact Agrees.package h outV inV
  | bucket kind outV inV => exact Agrees.bucket h kind outV inV
  | hover outV inV => exact Agrees.hover h hg outV inV
  | item outV inVs inV property =>
    exact { Agrees.items h hg outV property (Edge.itemTargets inVs inV) with }
  | other => exact { Agrees.ignored h with }

end Stage

end SymbolAtlas
