import Mathlib.Data.List.Forall2
import SymbolAtlas.Proofs.Portion
import SymbolAtlas.Proofs.Reading

/-!
The store and what is known about ids, next to the direct reading of a dump.  Record by record the
two say the same.
-/

namespace SymbolAtlas

namespace IdMap

variable {α : Type} {m : IdMap α}

theorem has_insert (m : IdMap α) (id : Int) (a : α) (j : Int) :
    (m.insert id a).has j = (decide (j = id) || m.has j) := by
  unfold has
  rw [get?_insert]
  by_cases h : j = id
  · simp [h]
  · simp [h]

theorem once_insert {f : α → Int} {id : Int} {new : α}
    (once : ∀ {j j' a a'}, m.get? j = some a → m.get? j' = some a' → f a' = f a → j' = j)
    (fresh : ∀ {j a}, j ≠ id → m.get? j = some a → f a ≠ f new) {j j' : Int} {a a' : α}
    (hj : (m.insert id new).get? j = some a) (hj' : (m.insert id new).get? j' = some a')
    (he : f a' = f a) : j' = j := by
  rw [get?_insert] at hj hj'
  split at hj
  next hid =>
    cases Option.some.inj hj
    split at hj'
    next hid' => exact hid'.trans hid.symm
    next hne => exact absurd he (fresh hne hj')
  next hne =>
    split at hj'
    next =>
      cases Option.some.inj hj'
      exact absurd he.symm (fresh hne hj)
    next => exact once hj hj' he

end IdMap

namespace Stage

def ranges (p : Stage) : List (Int × Range) := (p.store.only p.run).ranges.rows

/-- A row of a range, and the claim that it was made for. -/
structure Reads (spanOf : Int → Option Span) (claimed : IdMap ClaimedRange)
    (documents : Table Document) (r : Int × Range) (c : Claim) : Prop where
  known : claimed.get? c.range = some ⟨r.1, r.2.document, r.2.resultSet⟩
  uri : documents.view Document.uri r.2.document = some c.uri
  span : r.2.span = c.span
  seen : (spanOf c.range).isSome = true

/-- All that navigation depends on is as the records say.  Claims and definitions are given apart,
because one record can add several of them. -/
structure Agrees (past : Past) (claims : List Claim) (definitions : Int → List Location)
    (p : Stage) : Prop where
  documents : ∀ id, (p.known.documents.get? id).bind (p.store.documents.view Document.uri) =
    past.uri? id
  texts : ∀ id, (p.known.hovers.get? id).bind (p.store.hovers.view Hover.contents) = past.text? id
  kinds : ∀ bucket, p.known.kindOf? bucket = past.kind? bucket
  resultSets : ∀ id, p.known.resultSets.has id = past.hasResultSet id
  resultSetOnce : ∀ {id id' row}, p.known.resultSets.get? id = some row →
    p.known.resultSets.get? id' = some row → id' = id
  contents : ∀ {id row}, p.known.resultSets.get? id = some row →
    ∃ a, p.store.resultSets.get? row = some a ∧
      a.hover.bind (p.store.hovers.view Hover.contents) = past.hover? id ∧
      a.definitions = past.definitions? id
  unclaimed : ∀ {id range}, p.known.unclaimed.get? id = some range →
    past.span? id = some range.span ∧ (∀ c ∈ claims, c.range ≠ id) ∧
      range.resultSet = (past.resultSet? id).bind p.known.resultSets.get?
  claimed : ∀ {id range}, p.known.claimed.get? id = some range →
    (∃ c ∈ claims, c.range = id) ∧
      range.resultSet = (past.resultSet? id).bind p.known.resultSets.get?
  claimedOnce : ∀ {id id' range range'}, p.known.claimed.get? id = some range →
    p.known.claimed.get? id' = some range' → range'.row = range.row → id' = id
  seen : ∀ {id}, (past.span? id).isSome = true →
    p.known.unclaimed.has id = true ∨ p.known.claimed.has id = true
  rows : List.Forall₂ (Reads past.span? p.known.claimed p.store.documents) p.ranges claims
  definitionItems : ∀ bucket, p.store.definitionsIn p.run bucket = definitions bucket

/-- The stage of an ingest after some records, and the direct reading of these. -/
def Mirrors (past : Past) (p : Stage) : Prop :=
  Agrees past past.claims (fun bucket => past.definitionsIn bucket) p

variable {base : Store} {past : Past} {claims : List Claim} {definitions : Int → List Location}
  {p : Stage}

theorem Agrees.counting (h : Agrees past claims definitions p) (change : Report → Report) :
    Agrees past claims definitions (p.counting change) := { h with }

theorem Agrees.dangling (h : Agrees past claims definitions p) :
    Agrees past claims definitions p.dangling := { h with }

theorem Agrees.ignored (h : Agrees past claims definitions p) :
    Agrees past claims definitions p.ignored := { h with }

theorem exists_row {α β : Type} {R : α → β → Prop} {rows : List α} {list : List β} {b : β}
    (h : List.Forall₂ R rows list) (hb : b ∈ list) : ∃ a ∈ rows, R a b := by
  induction h with
  | nil => simp at hb
  | cons hr _ ih =>
    rcases List.mem_cons.mp hb with rfl | hb
    · exact ⟨_, List.mem_cons_self, hr⟩
    · obtain ⟨a, ha, hab⟩ := ih hb
      exact ⟨a, List.mem_cons_of_mem _ ha, hab⟩

theorem Agrees.claim_seen (h : Agrees past claims definitions p) {c : Claim} (hc : c ∈ claims) :
    (past.span? c.range).isSome = true := by
  obtain ⟨r, -, hr⟩ := exists_row h.rows hc
  exact hr.seen

theorem definitionsIn_congr {s t : Store} {run bucket : Int}
    (hi : t.definitionItems = s.definitionItems)
    (hl : ∀ r ∈ s.definitionItems.rows,
      t.location? r.2.document r.2.range = s.location? r.2.document r.2.range) :
    t.definitionsIn run bucket = s.definitionsIn run bucket := by
  unfold Store.definitionsIn
  rw [hi]
  exact List.filterMap_congr fun r hr => by rw [hl r hr]

theorem Agrees.document (h : Agrees past claims definitions p) (hg : p.Grounded base) (id : Int)
    (uri : String) (languageId : Option String) :
    Agrees (.vertex (.document id uri languageId) :: past) claims definitions
      (p.vertex (.document id uri languageId)) := by
  have ho := hg.keeps.ordered
  refine { h with documents := fun j => ?_, rows := ?_, definitionItems := fun bucket => ?_ }
  · change (((p.known.documents.insert id (p.store.documents.last + 1)).get? j).bind
      ((p.store.documents.insert _).view Document.uri)) =
        (if j = id then some uri else none).or (past.uri? j)
    rw [IdMap.get?_insert]
    split
    next => exact ho.documents.view_insert_next _
    next =>
      rw [Table.bind_view_insert fun row hr => Table.has_of_view (hg.names.documents hr)]
      exact h.documents j
  · have hr : (p.vertex (.document id uri languageId)).ranges = p.ranges :=
      congrArg Table.rows (Store.ranges_withDocument hg.keeps uri languageId)
    rw [hr]
    exact h.rows.imp fun _ _ hrow => { hrow with uri := Table.view_insert hrow.uri }
  · rw [← h.definitionItems bucket]
    refine definitionsIn_congr rfl fun r hr => ?_
    obtain ⟨range, d, hrange, -, hd, -⟩ := (hg.keeps.definitionItems r hr).rows
    have hd' : (p.vertex (.document id uri languageId)).store.documents.get? r.2.document =
        some d :=
      Table.get?_insert_of_some hd
    simp only [Store.location?, hd, hd']
    rfl

theorem span?_range (id j : Int) (span : Span) (past : Past) :
    Past.span? (.vertex (.range id span) :: past) j =
      if j = id then some span else past.span? j := by
  change (if j = id then some span else none).or (past.span? j) = _
  split <;> rfl

theorem Agrees.range (h : Agrees past claims definitions p) (id : Int) (span : Span)
    (hf : id ∉ past.ids) :
    Agrees (.vertex (.range id span) :: past) claims definitions
      (p.vertex (.range id span)) := by
  have hnone : past.span? id = none := by
    rw [Option.eq_none_iff_forall_ne_some]
    exact fun span hs => hf (Past.mem_ids_of_span? hs)
  have hlink : past.resultSet? id = none := by
    rw [Option.eq_none_iff_forall_ne_some]
    intro resultSet hr
    have := (Past.resultSet?_seen hr).1
    simp [hnone] at this
  have hclaims : ∀ c ∈ claims, c.range ≠ id := by
    intro c hc he
    have := h.claim_seen hc
    simp [he, hnone] at this
  refine { h with unclaimed := fun {j range} hu => ?_, seen := fun {j} hs => ?_, rows := ?_ }
  · change (p.known.unclaimed.insert id ⟨span, none⟩).get? j = some range at hu
    rw [IdMap.get?_insert] at hu
    rw [span?_range]
    split at hu
    next he =>
      cases Option.some.inj hu
      rw [if_pos he, he]
      refine ⟨rfl, hclaims, ?_⟩
      change none = (past.resultSet? id).bind _
      rw [hlink]
      rfl
    next he =>
      rw [if_neg he]
      exact h.unclaimed hu
  · change (p.known.unclaimed.insert id ⟨span, none⟩).has j = true ∨ p.known.claimed.has j = true
    rw [IdMap.has_insert]
    rw [span?_range] at hs
    split at hs
    next he => simp [he]
    next he => exact (h.seen hs).imp_left fun hw => by simp [hw]
  · exact h.rows.imp fun _ _ hrow => { hrow with seen := Past.span?_cons hrow.seen }

theorem hasResultSet_resultSet (id j : Int) (past : Past) :
    Past.hasResultSet (.vertex (.resultSet id) :: past) j =
      (decide (j = id) || past.hasResultSet j) := rfl

theorem Agrees.resultSet (h : Agrees past claims definitions p) (hg : p.Grounded base) (id : Int)
    (hf : id ∉ past.ids) :
    Agrees (.vertex (.resultSet id) :: past) claims definitions (p.vertex (.resultSet id)) := by
  have ho := hg.keeps.ordered.resultSets
  have hnew : past.hasResultSet id = false := by
    rw [Bool.eq_false_iff]
    exact fun hs => hf (Past.mem_ids_of_hasResultSet hs)
  have hlink : ∀ range, (past.resultSet? range).bind
      (p.known.resultSets.insert id (p.store.resultSets.last + 1)).get? =
        (past.resultSet? range).bind p.known.resultSets.get? := by
    intro range
    cases hr : past.resultSet? range with
    | none => rfl
    | some j =>
      have hj : j ≠ id := by
        rintro rfl
        simp [(Past.resultSet?_seen hr).2] at hnew
      simp only [Option.bind_some, IdMap.get?_insert, if_neg hj]
  have hold : ∀ {j row}, j ≠ id → p.known.resultSets.get? j = some row →
      row ≠ p.store.resultSets.last + 1 := by
    intro j row _ hj
    exact ho.ne_next (Table.has_of_view (hg.names.resultSets hj))
  refine { h with
    resultSets := fun j => ?_
    resultSetOnce := fun {j j' row} hj hj' => ?_
    contents := fun {j row} hj => ?_
    unclaimed := fun hu => ⟨(h.unclaimed hu).1, (h.unclaimed hu).2.1, ?_⟩
    claimed := fun hc => ⟨(h.claimed hc).1, ?_⟩ }
  · change (p.known.resultSets.insert id _).has j = _
    rw [IdMap.has_insert, hasResultSet_resultSet, h.resultSets j]
  · refine IdMap.once_insert (f := fun row => row) (fun hk hk' he => ?_) hold hj hj' rfl
    cases he
    exact h.resultSetOnce hk hk'
  · change (p.known.resultSets.insert id _).get? j = some row at hj
    rw [IdMap.get?_insert] at hj
    split at hj
    next he =>
      cases Option.some.inj hj
      subst he
      refine ⟨_, ho.get?_insert_next _, ?_, ?_⟩
      · change none = past.hover? j
        cases hh : past.hover? j with
        | none => rfl
        | some text => simp [Past.hover?_seen hh] at hnew
      · change none = past.definitions? j
        cases hd : past.definitions? j with
        | none => rfl
        | some bucket => simp [Past.definitions?_seen hd] at hnew
    next he =>
      obtain ⟨a, ha, hc⟩ := h.contents hj
      exact ⟨a, Table.get?_insert_of_some ha, hc⟩
  · exact (h.unclaimed hu).2.2.trans (hlink _).symm
  · exact (h.claimed hc).2.trans (hlink _).symm

theorem Agrees.hoverResult (h : Agrees past claims definitions p) (hg : p.Grounded base) (id : Int)
    (result : Json) :
    Agrees (.vertex (.hoverResult id result) :: past) claims definitions
      (p.vertex (.hoverResult id result)) := by
  have ho := hg.keeps.ordered.hovers
  refine { h with texts := fun j => ?_, contents := fun hj => ?_ }
  · change (((p.known.hovers.insert id (p.store.hovers.last + 1)).get? j).bind
      ((p.store.hovers.insert _).view Hover.contents)) =
        (if j = id then some result.hoverText else none).or (past.text? j)
    rw [IdMap.get?_insert]
    split
    next => exact ho.view_insert_next _
    next =>
      rw [Table.bind_view_insert fun row hr => Table.has_of_view (hg.names.hovers hr)]
      exact h.texts j
  · obtain ⟨a, ha, hh, hd⟩ := h.contents hj
    refine ⟨a, ha, ?_, hd⟩
    refine Eq.trans (Table.bind_view_insert (fun row hr => ?_) _ _) hh
    exact Table.has_of_view (hg.keeps.hoverOf _ (Table.mem_of_get? ha) row hr)

theorem learn_learnKind (p : Stage) (bucket : Int) (kind : BucketKind) (store : Store) :
    p.learn (fun k => k.learnKind bucket kind) store =
      p.learn (fun k => { k with kinds := (p.known.learnKind bucket kind).kinds }) store := by
  have hk : p.known.learnKind bucket kind =
      { p.known with kinds := (p.known.learnKind bucket kind).kinds } := by
    unfold Known.learnKind
    split <;> rfl
  exact congrArg (fun k => (⟨{ p.ingestion with known := k }, store⟩ : Stage)) hk

theorem Agrees.learnKind (h : Agrees past claims definitions p) (bucket j : Int)
    (kind : BucketKind) {e : Element}
    (he : ∀ j, Past.kind? [e] j = if j = bucket then some kind else none) :
    (p.known.learnKind bucket kind).kindOf? j = Past.kind? (e :: past) j := by
  rw [Known.kindOf?_learnKind, Past.kind?_cons, h.kinds, he]

theorem Agrees.bucketVertex (h : Agrees past claims definitions p) (kind : BucketKind) (id : Int) :
    Agrees (.vertex (.bucket kind id) :: past) claims definitions
      (p.vertex (.bucket kind id)) := by
  have hk : ∀ j, Past.kind? [.vertex (.bucket kind id)] j = if j = id then some kind else none := by
    intro j
    simp only [Past.kind?, Past.earliest]
    split <;> simp_all
  simp only [Stage.vertex, learn_learnKind]
  exact { h with kinds := fun j => h.learnKind id j kind hk }

/-- A declaration is read as it is stored. -/
theorem Mirrors.vertex (h : Mirrors past p) (hg : p.Grounded base) (v : Vertex)
    (hn : (Past.ids (.vertex v :: past)).Nodup) : Mirrors (.vertex v :: past) (p.vertex v) := by
  cases v with
  | metaData version projectRoot => exact { h with }
  | document id uri languageId => exact Agrees.document h hg id uri languageId
  | range id span => exact Agrees.range h id span (Past.fresh_id hn rfl)
  | resultSet id => exact Agrees.resultSet h hg id (Past.fresh_id hn rfl)
  | hoverResult id result => exact Agrees.hoverResult h hg id result
  | moniker id scheme identifier kind package => exact { h with }
  | packageInformation id name version manager => exact { h with }
  | bucket kind id => exact Agrees.bucketVertex h kind id
  | other => exact { h with }

end Stage

end SymbolAtlas
