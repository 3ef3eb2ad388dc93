import SymbolAtlas.Proofs.Indifference
import SymbolAtlas.Proofs.Links
import SymbolAtlas.Proofs.Reachable

namespace SymbolAtlas

theorem IdMap.get?_insert_self {α : Type} (m : IdMap α) (id : Int) (value : α) :
    (m.insert id value).get? id = some value := by rw [get?_insert, if_pos rfl]

namespace Stage

theorem danglingCount_claims (document : Int) (ids : List Int) (p : Stage) :
    p.danglingCount ≤ (ids.foldl (claim document) p).danglingCount := by
  refine List.foldlRecOn (motive := fun q : Stage => p.danglingCount ≤ q.danglingCount) ids
    (claim document) (Nat.le_refl _) fun q hq id _ => ?_
  unfold claim
  split
  next => exact Nat.le_succ_of_le hq
  next => exact hq

theorem danglingCount_items (bucket : Int) (property : Option String) (ids : List Int)
    (p : Stage) : p.danglingCount ≤ (ids.foldl (item bucket property) p).danglingCount := by
  refine List.foldlRecOn (motive := fun q : Stage => p.danglingCount ≤ q.danglingCount) ids
    (item bucket property) (Nat.le_refl _) fun q hq id _ => ?_
  unfold item
  split
  next => exact Nat.le_succ_of_le hq
  next => exact hq

theorem danglingCount_edge (p : Stage) (e : Edge) : p.danglingCount ≤ (p.edge e).danglingCount := by
  cases e with
  | contains outV inVs =>
    simp only [edge]
    split
    next => exact Nat.le_succ _
    next document _ => exact danglingCount_claims document inVs p
  | next outV inV =>
    simp only [edge, next]
    split
    next => exact Nat.le_succ _
    next =>
      split
      next => exact Nat.le_refl _
      next => exact Nat.le_refl _
      next =>
        split
        next => exact Nat.le_refl _
        next => exact Nat.le_succ _
  | bucket kind outV inV =>
    simp only [edge, bucket]
    split
    next => exact Nat.le_succ _
    next => exact Nat.le_refl _
  | item outV inVs inV property => exact danglingCount_items outV property _ p
  | other => exact Nat.le_refl _
  | _ =>
    simp only [edge]
    split
    next => exact Nat.le_refl _
    next => exact Nat.le_succ _

theorem danglingCount_line (p : Stage) (bytes : List UInt8) :
    p.danglingCount ≤ (p.line bytes).danglingCount := by
  rcases p.line_cases bytes with ⟨e, -, hline⟩ | ⟨v, -, hline⟩ | ⟨-, _, _, hline⟩
  · rw [hline]
    exact danglingCount_edge p.atEdge e
  · rw [hline]
    cases v <;> exact Nat.le_refl _
  · rw [hline]
    exact Nat.le_refl _

theorem danglingCount_lines (lines : List (List UInt8)) (p : Stage) :
    p.danglingCount ≤ (lines.foldl Stage.line p).danglingCount :=
  List.foldlRecOn (motive := fun q : Stage => p.danglingCount ≤ q.danglingCount) lines Stage.line
    (Nat.le_refl _) fun q hq bytes _ => Nat.le_trans hq (danglingCount_line q bytes)

end Stage

namespace Store

/-- What is stored of ranges, packages and items is there later on as well; a range can get another
result set. -/
structure Outlives (s t : Store) : Prop where
  ranges : ∀ {row place}, s.ranges.view (fun r => (r.document, r.span)) row = some place →
    t.ranges.view (fun r => (r.document, r.span)) row = some place
  packages : ∀ {row package}, s.packages.get? row = some package →
    t.packages.get? row = some package
  definitionItems : s.definitionItems.rows <+: t.definitionItems.rows
  referenceItems : s.referenceItems.rows <+: t.referenceItems.rows

theorem Outlives.refl (s : Store) : s.Outlives s := ⟨id, id, List.prefix_refl _, List.prefix_refl _⟩

theorem Outlives.trans {s t u : Store} (h : s.Outlives t) (h' : t.Outlives u) : s.Outlives u :=
  ⟨fun hr => h'.ranges (h.ranges hr), fun hp => h'.packages (h.packages hp),
    h.definitionItems.trans h'.definitionItems, h.referenceItems.trans h'.referenceItems⟩

theorem Write.outlives {run : Int} {s t : Store} (w : Write run s t) : s.Outlives t := by
  have h := Outlives.refl s
  cases w with
  | package name version manager =>
    exact { h with packages := fun hp => Table.get?_insert_of_some hp }
  | range span _ _ => exact { h with ranges := fun hr => Table.view_insert hr }
  | settingResultSet _ _ =>
    refine { h with ranges := fun hr => Eq.trans ?_ hr }
    exact Table.view_modify fun _ => rfl
  | definition bucket _ => exact { h with definitionItems := List.prefix_append _ _ }
  | reference bucket isDefinition _ => exact { h with referenceItems := List.prefix_append _ _ }
  | _ => exact { h with }

theorem outlives_writes {run : Int} {s t : Store}
    (path : Relation.ReflTransGen (Write run) s t) : s.Outlives t := by
  induction path with
  | refl => exact .refl s
  | tail _ w ih => exact ih.trans w.outlives

end Store

theorem Stage.Grounded.outlives {base : Store} {p : Stage} (h : p.Grounded base)
    (lines : List (List UInt8)) : p.store.Outlives (lines.foldl Stage.line p).store := by
  have hstart : p.Grounded p.store := ⟨h.live, h.keeps, h.names, .refl⟩
  exact Store.outlives_writes ((Stage.grounded_kept p.store).lines lines hstart).path

namespace Stage

variable {base : Store} {p : Stage} {document : Int} {ids : List Int}

theorem claim_of_unclaimed {id : Int} {range : UnclaimedRange}
    (hu : p.known.unclaimed.get? id = some range) :
    claim document p id =
      p.learn
        (fun k =>
          { k with
            unclaimed := k.unclaimed.erase id
            claimed := k.claimed.insert id
              ⟨p.store.ranges.last + 1, document, range.resultSet⟩ })
        (p.store.withRange document range.span range.resultSet) := by
  simp only [claim, hu]

theorem claimed_claims {id : Int} (h : id ∉ ids) (p : Stage) :
    (ids.foldl (claim document) p).known.claimed.get? id = p.known.claimed.get? id := by
  refine List.foldlRecOn (motive := fun q : Stage =>
    q.known.claimed.get? id = p.known.claimed.get? id) ids (claim document) rfl
    fun q hq other ho => ?_
  unfold claim
  split
  next => exact hq
  next =>
    have hne : id ≠ other := fun he => h (he ▸ ho)
    change (q.known.claimed.insert other _).get? id = _
    rw [IdMap.get?_insert, if_neg hne]
    exact hq

theorem ranges_claims {row : Int} {range : Range} (h : p.store.ranges.get? row = some range) :
    (ids.foldl (claim document) p).store.ranges.get? row = some range := by
  refine List.foldlRecOn (motive := fun q : Stage => q.store.ranges.get? row = some range) ids
    (claim document) h fun q hq id _ => ?_
  unfold claim
  split
  next => exact hq
  next => exact Table.get?_insert_of_some hq

theorem claims_stored (ho : p.store.ranges.Ordered)
    (h : (ids.foldl (claim document) p).danglingCount = p.danglingCount) :
    ∀ id ∈ ids, ∃ range row, p.known.unclaimed.get? id = some range ∧
      (ids.foldl (claim document) p).known.claimed.get? id =
        some ⟨row, document, range.resultSet⟩ ∧
      (ids.foldl (claim document) p).store.ranges.get? row =
        some ⟨document, range.span, range.resultSet⟩ := by
  induction ids generalizing p with
  | nil => nofun
  | cons first rest ih =>
    have hrest := danglingCount_claims document rest (claim document p first)
    have hfirst := danglingCount_claims document [first] p
    simp only [List.foldl_cons, List.foldl_nil] at h hfirst hrest ⊢
    cases hu : p.known.unclaimed.get? first with
    | none =>
      have hc : (claim document p first).danglingCount = p.danglingCount + 1 := by
        simp only [claim, hu]
        rfl
      omega
    | some range =>
      have hordered : (claim document p first).store.ranges.Ordered := by
        rw [claim_of_unclaimed hu]
        exact ho.insert _
      have hstored := ih hordered (by omega)
      -- A range that is claimed no longer waits, so no range is claimed twice.
      have hwaits {id : Int} {other : UnclaimedRange}
          (hw : (claim document p first).known.unclaimed.get? id = some other) :
          id ≠ first ∧ p.known.unclaimed.get? id = some other := by
        rw [claim_of_unclaimed hu] at hw
        change (p.known.unclaimed.erase first).get? id = some other at hw
        rw [IdMap.get?_erase] at hw
        split at hw
        next => cases hw
        next hne => exact ⟨hne, hw⟩
      intro id hid
      rcases List.mem_cons.mp hid with rfl | hid
      · have hn : id ∉ rest := by
          intro hmem
          obtain ⟨other, row, hw, -⟩ := hstored id hmem
          exact (hwaits hw).1 rfl
        refine ⟨range, p.store.ranges.last + 1, hu, ?_, ?_⟩
        · rw [claimed_claims hn, claim_of_unclaimed hu]
          exact IdMap.get?_insert_self _ _ _
        · refine ranges_claims ?_
          rw [claim_of_unclaimed hu]
          exact ho.get?_insert_next _
      · obtain ⟨other, row, hw, hclaimed, hrow⟩ := hstored id hid
        exact ⟨other, row, (hwaits hw).2, hclaimed, hrow⟩

theorem items_claimed {bucket : Int} {property : Option String}
    (h : (ids.foldl (item bucket property) p).danglingCount = p.danglingCount) :
    ∀ id ∈ ids, ∃ range, p.known.claimed.get? id = some range := by
  induction ids generalizing p with
  | nil => nofun
  | cons first rest ih =>
    have hrest := danglingCount_items bucket property rest (item bucket property p first)
    have hfirst := danglingCount_items bucket property [first] p
    have hknown := (items_known bucket property [first] p).2
    simp only [List.foldl_cons, List.foldl_nil] at h hfirst hrest hknown
    intro id hid
    rcases List.mem_cons.mp hid with rfl | hid
    · cases hc : p.known.claimed.get? id with
      | some range => exact ⟨range, rfl⟩
      | none =>
        have hd : (item bucket property p id).danglingCount = p.danglingCount + 1 := by
          simp only [item, hc]
          rfl
        omega
    · rw [← hknown]
      exact ih (by omega) id hid

theorem itemsOf_of_claimed {g : Ingestion} {bucket : Int}
    (h : ∀ id ∈ ids, ∃ range, g.known.claimed.get? id = some range) :
    List.Forall₂ (fun id item => ∃ range, g.known.claimed.get? id = some range ∧
      item = ⟨g.run, bucket, range.document, range.row⟩) ids (g.itemsOf bucket ids) := by
  induction ids with
  | nil => exact .nil
  | cons id rest ih =>
    obtain ⟨range, hr⟩ := h id List.mem_cons_self
    have hrest := ih fun other ho => h other (List.mem_cons_of_mem _ ho)
    unfold Ingestion.itemsOf at hrest ⊢
    rw [List.filterMap_cons, hr]
    exact .cons ⟨range, hr, rfl⟩ hrest

/-- The link is there until a line writes another one in its place, and in the end if none does. -/
def HoldsUntilReplaced (q : Stage) (after : List (List UInt8)) (t : Store) (l : Link) : Prop :=
  ∀ between rest, after = between ++ rest → q.Leaves l between →
    (between.foldl Stage.line q).store.Holds l ∧ (rest = [] → t.Holds l)

/-- What has come of an edge that leads from one stage to another, up to the store in the end. -/
def TookEffect (p q : Stage) (after : List (List UInt8)) (t : Store) : Edge → Prop
  | .contains outV inVs =>
    -- Every target was waiting and is a row of the document, with the result set that it had.
    ∃ document, p.known.documents.get? outV = some document ∧
      ∀ id ∈ inVs, ∃ range row, p.known.unclaimed.get? id = some range ∧
        q.known.claimed.get? id = some ⟨row, document, range.resultSet⟩ ∧
        t.ranges.view (fun r => (r.document, r.span)) row = some (document, range.span) ∧
        ∀ resultSet, range.resultSet = some resultSet →
          q.HoldsUntilReplaced after t ⟨.resultSet, row, resultSet⟩
  | .next outV inV =>
    -- The range has the result set, whether it is waiting or not; other ends are not linked.
    ∃ resultSet, p.known.resultSets.get? inV = some resultSet ∧
      ((∃ range, q.known.unclaimed.get? outV = some range ∧ range.resultSet = some resultSet) ∨
        (∃ range, p.known.claimed.get? outV = some range ∧
          q.HoldsUntilReplaced after t ⟨.resultSet, range.row, resultSet⟩) ∨
        p.known.unclaimed.get? outV = none ∧ p.known.claimed.get? outV = none ∧
          p.known.resultSets.has outV = true)
  | .item outV inVs inV property =>
    -- There is one row for each target, all of them in one table.
    ∃ items, List.Forall₂ (fun id item => ∃ range, p.known.claimed.get? id = some range ∧
        item = ⟨p.run, outV, range.document, range.row⟩) (Edge.itemTargets inVs inV) items ∧
      (q.store = p.store.withItems (p.store.definitionItems.insertAll items)
          p.store.referenceItems ∨
        q.store = p.store.withItems p.store.definitionItems
          (p.store.referenceItems.insertAll (items.map fun item =>
            { item with isDefinition := Edge.isDefinitions property }))) ∧
      q.store.definitionItems.rows <+: t.definitionItems.rows ∧
      q.store.referenceItems.rows <+: t.referenceItems.rows
  | .other => True
  | e => ∃ l, p.linkOf? e = some l ∧ q.HoldsUntilReplaced after t l

section Effect

variable {after : List (List UInt8)} {t : Store} {e : Edge} {l : Link}

theorem holdsUntilReplaced {q : Stage} (h : q.store.Holds l)
    (ht : t = { (after.foldl Stage.line q).store with occurrences := t.occurrences }) :
    q.HoldsUntilReplaced after t l := by
  rintro between rest rfl hleaves
  have hheld := lines_keep_link h hleaves
  refine ⟨hheld, fun hrest => ?_⟩
  rw [hrest, List.append_nil] at ht
  rw [ht]
  exact hheld

theorem contains_took_effect (hg : p.Grounded base) {outV : Int} {inVs : List Int}
    (h : (p.edge (.contains outV inVs)).danglingCount = p.danglingCount)
    (ht : t = { (after.foldl Stage.line (p.edge (.contains outV inVs))).store with
      occurrences := t.occurrences }) :
    TookEffect p (p.edge (.contains outV inVs)) after t (.contains outV inVs) := by
  have hlast := ((grounded_kept base).edge (.contains outV inVs) hg).outlives after
  revert h ht hlast
  simp only [edge, TookEffect]
  split
  next =>
    intro h
    have hd : p.dangling.danglingCount = p.danglingCount + 1 := rfl
    omega
  next document hdoc =>
    intro h ht hlast
    refine ⟨document, hdoc, fun id hid => ?_⟩
    obtain ⟨range, row, hu, hclaimed, hrow⟩ :=
      claims_stored hg.keeps.ordered.ranges h id hid
    refine ⟨range, row, hu, hclaimed, ?_, fun resultSet hr => ?_⟩
    · rw [ht]
      exact hlast.ranges (Table.view_eq_some_iff.mpr ⟨_, hrow, rfl⟩)
    · refine holdsUntilReplaced ?_ ht
      exact Option.bind_eq_some_iff.mpr ⟨_, hrow, hr⟩

theorem next_took_effect (hg : p.Grounded base) {outV inV : Int}
    (h : (p.edge (.next outV inV)).danglingCount = p.danglingCount)
    (ht : t = { (after.foldl Stage.line (p.edge (.next outV inV))).store with
      occurrences := t.occurrences }) :
    TookEffect p (p.edge (.next outV inV)) after t (.next outV inV) := by
  have hwritten {l : Link} (hl : p.linkOf? (.next outV inV) = some l) :=
    holdsUntilReplaced (hg.link_written hl) ht
  have hd : p.dangling.danglingCount = p.danglingCount + 1 := rfl
  revert h hwritten
  simp only [edge, next, linkOf?, TookEffect]
  cases p.known.resultSets.get? inV with
  | none =>
    intro h
    dsimp only at h
    omega
  | some resultSet =>
    cases hu : p.known.unclaimed.get? outV with
    | some range =>
      intro _ _
      exact ⟨resultSet, rfl, .inl ⟨{ range with resultSet := some resultSet },
        IdMap.get?_insert_self _ _ _, rfl⟩⟩
    | none =>
      cases hc : p.known.claimed.get? outV with
      | some range =>
        exact fun _ hwritten => ⟨resultSet, rfl, .inr (.inl ⟨range, rfl, hwritten rfl⟩)⟩
      | none =>
        intro h _
        dsimp only at h
        split at h
        next hr => exact ⟨resultSet, rfl, .inr (.inr ⟨rfl, rfl, hr⟩)⟩
        next => omega

theorem item_took_effect (hg : p.Grounded base) {outV : Int} {inVs : Option (List Int)}
    {inV : Option Int} {property : Option String}
    (h : (p.edge (.item outV inVs inV property)).danglingCount = p.danglingCount)
    (ht : t = { (after.foldl Stage.line (p.edge (.item outV inVs inV property))).store with
      occurrences := t.occurrences }) :
    TookEffect p (p.edge (.item outV inVs inV property)) after t
      (.item outV inVs inV property) := by
  have hlast := ((grounded_kept base).edge (.item outV inVs inV property) hg).outlives after
  have hstore := items_store outV property (Edge.itemTargets inVs inV) p
  refine ⟨p.ingestion.itemsOf outV (Edge.itemTargets inVs inV),
    itemsOf_of_claimed (items_claimed h), ?_, ?_, ?_⟩
  · simp only [Store.withItemsOf, Ingestion.definitionsOf, Ingestion.referencesOf] at hstore
    split at hstore
    next => exact .inl hstore
    next => exact .inr hstore
  · rw [ht]
    exact hlast.definitionItems
  · rw [ht]
    exact hlast.referenceItems

theorem joined_of_count {kind : LinkKind} {source target : Option Int} {write : Int → Int → Store}
    (h : (match source, target with
      | some a, some b => p.writing (write a b)
      | _, _ => p.dangling).danglingCount = p.danglingCount) :
    ∃ l, joined? kind source target = some l := by
  have hd : p.dangling.danglingCount = p.danglingCount + 1 := rfl
  cases source with
  | none =>
    dsimp only at h
    omega
  | some a =>
    cases target with
    | none =>
      dsimp only at h
      omega
    | some b => exact ⟨_, rfl⟩

theorem bucket_of_count {kind : BucketKind} {outV inV : Int}
    (h : (p.edge (.bucket kind outV inV)).danglingCount = p.danglingCount) :
    ∃ l, p.linkOf? (.bucket kind outV inV) = some l := by
  have hlearned := resultSetOf?_learnKind p.known inV outV kind
  have hd : p.dangling.danglingCount = p.danglingCount + 1 := rfl
  revert h
  simp only [edge, bucket, linkOf?, learn, known, Ingestion.learn, hlearned]
  cases p.known.resultSetOf? outV with
  | none =>
    intro h
    change p.dangling.danglingCount = p.danglingCount at h
    omega
  | some resultSet => exact fun _ => ⟨_, rfl⟩

/-- An edge of which nothing is counted as dangling took effect. -/
theorem edge_took_effect (hg : p.Grounded base) (h : (p.edge e).danglingCount = p.danglingCount)
    (ht : t = { (after.foldl Stage.line (p.edge e)).store with occurrences := t.occurrences }) :
    TookEffect p (p.edge e) after t e := by
  have hwritten : (∃ l, p.linkOf? e = some l) →
      ∃ l, p.linkOf? e = some l ∧ (p.edge e).HoldsUntilReplaced after t l := by
    rintro ⟨l, hl⟩
    exact ⟨l, hl, holdsUntilReplaced (hg.link_written hl) ht⟩
  cases e with
  | contains outV inVs => exact contains_took_effect hg h ht
  | next outV inV => exact next_took_effect hg h ht
  | moniker outV inV => exact hwritten (joined_of_count h)
  | packageInformation outV inV => exact hwritten (joined_of_count h)
  | bucket kind outV inV => exact hwritten (bucket_of_count h)
  | hover outV inV => exact hwritten (joined_of_count h)
  | item outV inVs inV property => exact item_took_effect hg h ht
  | other => trivial

end Effect

end Stage

/-- The package that a vertex declares, after its id. -/
def Vertex.package? : Vertex → Option (Int × String × Option String × Option String)
  | packageInformation id name version manager => some (id, name, version, manager)
  | _ => none

/-- The id of a moniker and that of the package that it names. -/
def Vertex.packaged? : Vertex → Option (Int × Int)
  | moniker id _ _ _ (some package) => some (id, package)
  | _ => none

namespace Stage

section Packages

variable {base : Store} {p : Stage} {package row : Int} {bytes : List UInt8}

theorem packages_claim (document : Int) (p : Stage) (id : Int) :
    (p.claim document id).known.packages = p.known.packages := by
  unfold claim
  split
  next => rfl
  next => rfl

theorem packages_edge (p : Stage) (e : Edge) : (p.edge e).known.packages = p.known.packages := by
  cases e with
  | contains outV inVs =>
    simp only [edge]
    split
    next => rfl
    next document _ =>
      exact List.foldlRecOn (motive := fun q : Stage => q.known.packages = p.known.packages) inVs
        (claim document) rfl fun q hq id _ => (packages_claim document q id).trans hq
  | next outV inV =>
    simp only [edge, next]
    repeat' split
    all_goals rfl
  | bucket kind outV inV =>
    have hlearned : (p.known.learnKind inV kind).packages = p.known.packages := by
      rw [Known.learnKind_eq]
    simp only [edge, bucket]
    split <;> exact hlearned
  | item outV inVs inV property =>
    exact congrArg Known.packages (items_known outV property (Edge.itemTargets inVs inV) p).2
  | other => rfl
  | _ =>
    simp only [edge]
    split <;> rfl

theorem packages_line (hk : p.known.packages.get? package = some row)
    (hn : ((vertexOfLine? bytes).bind Vertex.package?).map Prod.fst ≠ some package) :
    (p.line bytes).known.packages.get? package = some row := by
  rcases p.line_cases bytes with ⟨e, -, hline⟩ | ⟨v, hv, hline⟩ | ⟨-, _, _, hline⟩
  · rw [hline, packages_edge]
    exact hk
  · rw [hline]
    rw [hv] at hn
    cases v with
    | packageInformation id name version manager =>
      have hne : package ≠ id := fun he => hn (congrArg some he.symm)
      change (p.known.packages.insert id _).get? package = _
      rw [IdMap.get?_insert, if_neg hne]
      exact hk
    | bucket kind id =>
      have hlearned : (p.known.learnKind id kind).packages = p.known.packages := by
        rw [Known.learnKind_eq]
      exact hlearned ▸ hk
    | _ => exact hk
  · rw [hline]
    exact hk

theorem packages_lines {lines : List (List UInt8)}
    (hk : p.known.packages.get? package = some row)
    (hn : ∀ line ∈ lines,
      ((vertexOfLine? line).bind Vertex.package?).map Prod.fst ≠ some package) :
    (lines.foldl Stage.line p).known.packages.get? package = some row :=
  List.foldlRecOn (motive := fun q : Stage => q.known.packages.get? package = some row) lines
    Stage.line hk fun _ hq line hl => packages_line hq (hn line hl)

theorem package_declared (hg : p.Grounded base) {name : String} {version manager : Option String}
    (hd : (vertexOfLine? bytes).bind Vertex.package? = some (package, name, version, manager)) :
    ∃ row, (p.line bytes).known.packages.get? package = some row ∧
      (p.line bytes).store.packages.get? row = some ⟨p.run, name, version, manager⟩ := by
  obtain ⟨v, hv, hpackage⟩ := Option.bind_eq_some_iff.mp hd
  rw [line_vertex hv]
  cases v with
  | packageInformation =>
    cases hpackage
    exact ⟨p.store.packages.last + 1, IdMap.get?_insert_self _ _ _,
      hg.keeps.ordered.packages.get?_insert_next _⟩
  | _ => cases hpackage

theorem moniker_packaged (hg : p.Grounded base) {id : Int}
    (hk : p.known.packages.get? package = some row)
    (hn : (vertexOfLine? bytes).bind Vertex.packaged? = some (id, package)) :
    ∃ moniker, (p.line bytes).known.monikers.get? id = some moniker ∧
      (p.line bytes).store.Holds ⟨.package, moniker, row⟩ := by
  obtain ⟨v, hv, hpackage⟩ := Option.bind_eq_some_iff.mp hn
  rw [line_vertex hv]
  cases v with
  | moniker _ scheme identifier kind named =>
    cases named with
    | none => cases hpackage
    | some _ =>
      cases hpackage
      refine ⟨p.store.monikers.last + 1, IdMap.get?_insert_self _ _ _, ?_⟩
      exact Option.bind_eq_some_iff.mpr ⟨_, hg.keeps.ordered.monikers.get?_insert_next _, hk⟩
  | _ => cases hpackage

end Packages

end Stage

section Dumps

variable {access : Access} {s t : Store} {settings : IngestSettings} {about : RunMeta}
  {stream : ByteStream} {report : Report}

/-- What a derivation adds to a stored dump are occurrences, and the two entries of the report that
tell of it. -/
theorem ingest_ok_graph (hi : ingest settings about stream access s = (.ok report, t)) :
    ∃ stored mid, ingestGraph about stream access s = (.ok stored, mid) ∧
      report = { stored with
        derivation := report.derivation, derivationError := report.derivationError } ∧
      t = { mid with occurrences := t.occurrences } := by
  cases hg : ingestGraph about stream access s with
  | mk result mid =>
    cases result with
    | error e =>
      have he : (ingest settings about stream access s).1 = .error e :=
        ingest_error_iff.mpr (congrArg Prod.fst hg)
      simp [hi] at he
    | ok stored =>
      refine ⟨stored, mid, rfl, ?_⟩
      rw [ingest_of_graph hg] at hi
      split at hi
      next =>
        rcases derivation_cases access mid false stored.run with ⟨c, hd⟩ | ⟨counts, hd⟩
        · rw [hd] at hi
          cases hi
          exact ⟨rfl, rfl⟩
        · rw [hd] at hi
          cases hi
          refine ⟨rfl, ?_⟩
          simp only [Bool.false_eq_true, if_false, Store.derived_eq]
      next =>
        cases hi
        exact ⟨rfl, rfl⟩

theorem ingest_ok_stage (hi : ingest settings about stream access s = (.ok report, t)) :
    report.run = s.runs.last + 1 ∧
      report.danglingReferences = (stageAfter about access s stream.lines).danglingCount ∧
      t = { (stageAfter about access s stream.lines).store with occurrences := t.occurrences } := by
  obtain ⟨stored, mid, hg, hreport, ht⟩ := ingest_ok_graph hi
  obtain ⟨-, p, hp, hclosing, rfl⟩ := ingestGraph_stage hg
  have hstage : stageAfter about access s stream.lines = p := hp
  rw [hstage, hreport]
  exact ⟨(closing_report_awaits hg).1, hclosing ▸ rfl, ht⟩

theorem grounded_stageAfter (h : s.Scoped) (about : RunMeta) (access : Access)
    (lines : List (List UInt8)) :
    (stageAfter about access s lines).Grounded
      (s.withRun about (about.createdAt.getD access.clock)) :=
  (Stage.grounded_kept _).lines lines (Stage.grounded_start h about _)

theorem stageAfter_append (about : RunMeta) (access : Access) (s : Store)
    (before : List (List UInt8)) (bytes : List UInt8) (after : List (List UInt8)) :
    stageAfter about access s (before ++ bytes :: after) =
      after.foldl Stage.line ((stageAfter about access s before).line bytes) := by
  unfold stageAfter
  rw [List.foldl_append, List.foldl_cons]

theorem Report.dangling_of_clean {r : Report} (h : r.isClean = true) :
    r.danglingReferences = 0 := by
  simp only [isClean, Bool.and_eq_true, beq_iff_eq] at h
  exact h.1.1.2

/-- If a report is clean, every edge of the dump took effect, and every moniker has the package that
it names, if that was declared before, until an edge gives it another one. -/
theorem clean_ingest_loses_nothing (h : Reachable s)
    (hi : ingest settings about stream access s = (.ok report, t)) (hc : report.isClean = true) :
    (∀ before bytes after e, stream.lines = before ++ bytes :: after →
      edgeOfLine? bytes = some e →
      Stage.TookEffect (stageAfter about access s before)
        ((stageAfter about access s before).line bytes) after t e) ∧
    ∀ earlier declaration between bytes after package name version manager id,
      stream.lines = earlier ++ declaration :: between ++ bytes :: after →
      (vertexOfLine? declaration).bind Vertex.package? = some (package, name, version, manager) →
      (∀ line ∈ between,
        ((vertexOfLine? line).bind Vertex.package?).map Prod.fst ≠ some package) →
      (vertexOfLine? bytes).bind Vertex.packaged? = some (id, package) →
      ∃ moniker row,
        ((stageAfter about access s (earlier ++ declaration :: between)).line
          bytes).known.monikers.get? id = some moniker ∧
        t.packages.get? row = some ⟨report.run, name, version, manager⟩ ∧
        ((stageAfter about access s (earlier ++ declaration :: between)).line
          bytes).HoldsUntilReplaced after t ⟨.package, moniker, row⟩ := by
  obtain ⟨hrun, hcount, ht⟩ := ingest_ok_stage hi
  rw [Report.dangling_of_clean hc] at hcount
  constructor
  · intro before bytes after e hlines he
    have hg := grounded_stageAfter h.scoped about access before
    rw [hlines, stageAfter_append] at hcount ht
    -- Nothing dangles in the end, so nothing dangled at this edge.
    have hline := (stageAfter about access s before).danglingCount_line bytes
    have hafter := Stage.danglingCount_lines after ((stageAfter about access s before).line bytes)
    have hsame : ((stageAfter about access s before).line bytes).danglingCount =
        (stageAfter about access s before).danglingCount := by omega
    rw [Stage.line_edge he] at ht hsame ⊢
    exact Stage.edge_took_effect (p := (stageAfter about access s before).atEdge)
      ⟨hg.live, hg.keeps, hg.names, hg.path⟩ hsame ht
  · intro earlier declaration between bytes after package name version manager id hlines hdeclared
      hlast hnamed
    have hg := grounded_stageAfter h.scoped about access earlier
    have hg' := grounded_stageAfter h.scoped about access (earlier ++ declaration :: between)
    obtain ⟨row, hknown, hrow⟩ := Stage.package_declared hg hdeclared
    have hknown := Stage.packages_lines hknown hlast
    rw [← stageAfter_append] at hknown
    obtain ⟨moniker, hmoniker, hheld⟩ := Stage.moniker_packaged hg' hknown hnamed
    refine ⟨moniker, row, hmoniker, ?_, ?_⟩
    · have hstored := ((Stage.grounded_kept _).line declaration hg).outlives
        (between ++ bytes :: after)
      rw [hlines, List.append_assoc, List.cons_append, stageAfter_append] at ht
      rw [ht, hrun, ← run_lines s about (about.createdAt.getD access.clock) earlier]
      exact hstored.packages hrow
    · rw [hlines, stageAfter_append] at ht
      exact Stage.holdsUntilReplaced hheld ht

end Dumps

/-- The lines before a moniker: the package that it names comes right before it. -/
def packageLines : List (List UInt8) :=
  ["[\"vertex\",\"document\",1,\"a\",null]", "[\"vertex\",\"range\",2,[0,4],[0,7]]",
    "[\"vertex\",\"resultSet\",3]"].map fun line => line.toUTF8.toList

def packageLine : List UInt8 :=
  "[\"vertex\",\"packageInformation\",5,\"left-pad\",null,null]".toUTF8.toList

def packagedLine : List UInt8 :=
  "[\"vertex\",\"moniker\",4,\"npm\",\"a:f\",null,5]".toUTF8.toList

def containsLine : List UInt8 := "[\"edge\",\"contains\",1,[2]]".toUTF8.toList

/-- The function belongs to a result set, and the moniker too. -/
def linkLines : List (List UInt8) :=
  ["[\"edge\",\"next\",2,3]", "[\"edge\",\"moniker\",3,4]"].map fun line => line.toUTF8.toList

/-- A function in a document, with a moniker that names the package of the function. -/
def packagedLines : List (List UInt8) :=
  packageLines ++ [packageLine, packagedLine, containsLine] ++ linkLines

def packagedReport : Report where
  run := 1
  lines := 8
  vertices := 5
  edges := 3
  derivation := some ⟨0, 0, 0, 0⟩

def packagedStore : Store where
  runs := ⟨1, [(1, { repo := none, commit := none, createdAt := 0 })]⟩
  documents := ⟨1, [(1, ⟨1, "a", none⟩)]⟩
  packages := ⟨1, [(1, ⟨1, "left-pad", none, none⟩)]⟩
  monikers := ⟨1, [(1, ⟨1, "npm", "a:f", none, some 1⟩)]⟩
  symbols := ⟨1, [(1, ⟨"npm", "a:f", "f", none⟩)]⟩
  links := [⟨1, 1⟩]
  resultSets := ⟨1, [(1, { run := 1, moniker := some 1 })]⟩
  ranges := ⟨1, [(1, ⟨1, .ofCoords 0 4 0 7, some 1⟩)]⟩
  searchIndex := [⟨1, "f", "a:f"⟩]

/-- The function is stored, and its moniker has the package that it names. -/
theorem packaged_dump_complete :
    packagedReport.isClean = true ∧
      (∃ row, packagedStore.ranges.view (fun r => (r.document, r.span)) row =
        some (1, .ofCoords 0 4 0 7)) ∧
      ∃ moniker row, packagedStore.packages.get? row = some ⟨1, "left-pad", none, none⟩ ∧
        packagedStore.Holds ⟨.package, moniker, row⟩ := by
  have hi : ingest {} {} (.ofLines packagedLines) {} .empty =
      (.ok packagedReport, packagedStore) := by decide +kernel
  have hlines : (ByteStream.ofLines packagedLines).lines = packagedLines :=
    ByteStream.lines_ofLines (by decide +kernel)
  have hclean : packagedReport.isClean = true := by decide
  obtain ⟨heffect, hpackage⟩ := clean_ingest_loses_nothing .empty hi hclean
  refine ⟨hclean, ?_, ?_⟩
  · have hcontains : edgeOfLine? containsLine = some (.contains 1 [2]) := by decide +kernel
    obtain ⟨document, hdocument, hranges⟩ :=
      heffect (packageLines ++ [packageLine, packagedLine]) containsLine linkLines _ hlines
        hcontains
    obtain ⟨range, row, hwaiting, -, hstored, -⟩ := hranges 2 List.mem_cons_self
    have hnumber : (stageAfter {} {} .empty (packageLines ++ [packageLine,
        packagedLine])).known.documents.get? 1 = some 1 := by decide +kernel
    have hspan : ((stageAfter {} {} .empty (packageLines ++ [packageLine,
        packagedLine])).known.unclaimed.get? 2).map UnclaimedRange.span =
          some (.ofCoords 0 4 0 7) := by decide +kernel
    rw [hwaiting, Option.map_some, Option.some.injEq] at hspan
    rw [hspan, ← Option.some.inj (hnumber.symm.trans hdocument)] at hstored
    exact ⟨row, hstored⟩
  · obtain ⟨moniker, row, -, hrow, hheld⟩ :=
      hpackage packageLines packageLine [] packagedLine (containsLine :: linkLines) 5 "left-pad"
        none none 4 hlines (by decide +kernel) nofun (by decide +kernel)
    have hkinds : ∀ line ∈ containsLine :: linkLines,
        (edgeOfLine? line).bind Edge.linkKind? ≠ some .package := by decide +kernel
    have hleaves := Stage.leaves_of_kinds (l := ⟨.package, moniker, row⟩) hkinds
    have hend := hheld (containsLine :: linkLines) [] (List.append_nil _).symm (hleaves _)
    exact ⟨moniker, row, hrow, hend.2 rfl⟩

/-- A moniker, and the package that it names too late for it. -/
def lateLines : List (List UInt8) := [packagedLine, packageLine]

def lateReport : Report where
  run := 1
  lines := 2
  vertices := 2
  derivation := some ⟨0, 0, 0, 0⟩

def lateStore : Store where
  runs := ⟨1, [(1, { repo := none, commit := none, createdAt := 0 })]⟩
  packages := ⟨1, [(1, ⟨1, "left-pad", none, none⟩)]⟩
  monikers := ⟨1, [(1, ⟨1, "npm", "a:f", none, none⟩)]⟩
  symbols := ⟨1, [(1, ⟨"npm", "a:f", "f", none⟩)]⟩
  links := [⟨1, 1⟩]
  searchIndex := [⟨1, "f", "a:f"⟩]

/-- A report can be clean although a moniker has not got the package that it names, because the
package is declared after it. -/
theorem clean_report_hides_late_package :
    ¬ ∀ (stream : ByteStream) (report : Report) (t : Store),
      ingest {} {} stream {} .empty = (.ok report, t) → report.isClean = true →
      ∀ before bytes after id package, stream.lines = before ++ bytes :: after →
      (∃ line ∈ stream.lines,
        ((vertexOfLine? line).bind Vertex.package?).map Prod.fst = some package) →
      (vertexOfLine? bytes).bind Vertex.packaged? = some (id, package) →
      ∃ moniker row,
        ((stageAfter {} {} .empty before).line bytes).known.monikers.get? id = some moniker ∧
        ((stageAfter {} {} .empty before).line bytes).HoldsUntilReplaced after t
          ⟨.package, moniker, row⟩ := by
  intro claim
  have hi : ingest {} {} (.ofLines lateLines) {} .empty = (.ok lateReport, lateStore) := by
    decide +kernel
  have hlines : (ByteStream.ofLines lateLines).lines = lateLines :=
    ByteStream.lines_ofLines (by decide +kernel)
  have hdeclared : ∃ line ∈ (ByteStream.ofLines lateLines).lines,
      ((vertexOfLine? line).bind Vertex.package?).map Prod.fst = some 5 := by
    rw [hlines]
    decide +kernel
  obtain ⟨moniker, row, hmoniker, hheld⟩ :=
    claim _ _ _ hi (by decide) [] packagedLine [packageLine] 4 5 hlines hdeclared
      (by decide +kernel)
  have hnumber : ((stageAfter {} {} .empty []).line packagedLine).known.monikers.get? 4 =
      some 1 := by decide +kernel
  have hkinds : ∀ line ∈ [packageLine],
      (edgeOfLine? line).bind Edge.linkKind? ≠ some .package := by decide +kernel
  have hleaves := Stage.leaves_of_kinds (l := ⟨.package, moniker, row⟩) hkinds
  have hend := (hheld _ [] (List.append_nil _).symm (hleaves _)).2 rfl
  cases Option.some.inj (hnumber.symm.trans hmoniker)
  cases hend

end SymbolAtlas
