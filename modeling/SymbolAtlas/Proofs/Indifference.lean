import SymbolAtlas.Proofs.Skipped

namespace SymbolAtlas

def Table.insertAll {α : Type} (t : Table α) (rows : List α) : Table α := rows.foldl Table.insert t

theorem Table.insertAll_append {α : Type} (t : Table α) (rows more : List α) :
    t.insertAll (rows ++ more) = (t.insertAll rows).insertAll more := List.foldl_append

theorem Table.rows_insertAll {α : Type} (t : Table α) (rows : List α) :
    (t.insertAll rows).rows.map Prod.snd = t.rows.map Prod.snd ++ rows := by
  induction rows generalizing t with
  | nil => simp [insertAll]
  | cons row rest ih =>
    have hrest : t.insertAll (row :: rest) = (t.insert row).insertAll rest := rfl
    rw [hrest, ih, rows_insert, List.map_append, List.append_assoc]
    rfl

/-- Nothing that stands in the way of writing depends on what is stored. -/
structure Access.Steady (access : Access) : Prop where
  fails : ∀ table event s t, access.fails table event s = access.fails table event t
  commitFails : ∀ s t, access.commitFails s = access.commitFails t

namespace Access.Steady

variable {access : Access} {s t : Store}

theorem permit (h : access.Steady) (touches : List Touch) :
    access.permit s touches = access.permit t touches := by
  induction touches with
  | nil => rfl
  | cons touch rest ih => simp only [Access.permit, h.fails touch.1 touch.2 s t, ih]

theorem allows (h : access.Steady) {touches : List Touch} (ha : access.Allows s touches) :
    access.Allows t touches := ⟨ha.1, (h.permit touches).trans ha.2⟩

theorem inTransaction (h : access.Steady) : ({ access with inTransaction := true }).Steady :=
  ⟨h.fails, h.commitFails⟩

end Access.Steady

def Store.withItems (s : Store) (definitions : Table Item) (references : Table ReferenceItem) :
    Store :=
  { s with definitionItems := definitions, referenceItems := references }

namespace Action

variable {ε δ α β ι : Type} {access : Access}

/-- If the action succeeds, it does so whatever items there are, and adds the same ones to them. -/
def Indifferent (access : Access) (x : Action ε α) : Prop :=
  ∀ s a t, x access s = (.ok a, t) → ∃ definitions references, ∀ d r,
    x access (s.withItems d r) =
      (.ok a, t.withItems (d.insertAll definitions) (r.insertAll references))

theorem Indifferent.pure (a : α) : Indifferent access (Pure.pure a : Action ε α) := by
  intro s b t h
  obtain ⟨rfl, rfl⟩ := pure_ok_iff.mp h
  exact ⟨[], [], fun _ _ => rfl⟩

theorem Indifferent.bind {x : Action ε α} {f : α → Action ε β} (hx : Indifferent access x)
    (hf : ∀ a, Indifferent access (f a)) : Indifferent access (x >>= f) := by
  intro s b t h
  obtain ⟨a, u, ha, hb⟩ := bind_ok_iff.mp h
  obtain ⟨d₁, r₁, h₁⟩ := hx s a u ha
  obtain ⟨d₂, r₂, h₂⟩ := hf a u b t hb
  refine ⟨d₁ ++ d₂, r₁ ++ r₂, fun d r => ?_⟩
  rw [Table.insertAll_append, Table.insertAll_append]
  exact bind_ok_iff.mpr ⟨a, _, h₁ d r, h₂ _ _⟩

theorem Indifferent.mapError {x : Action ε α} (hx : Indifferent access x) (f : ε → δ) :
    Indifferent access (x.mapError f) := by
  intro s a t h
  obtain ⟨d₁, r₁, h₁⟩ := hx s a t (mapError_ok_iff.mp h)
  exact ⟨d₁, r₁, fun d r => mapError_ok_iff.mpr (h₁ d r)⟩

theorem Indifferent.foldlM {f : α → ι → Action ε α} (hf : ∀ a i, Indifferent access (f a i))
    (list : List ι) (a : α) : Indifferent access (list.foldlM f a) := by
  induction list generalizing a with
  | nil => exact .pure a
  | cons i rest ih =>
    rw [List.foldlM_cons]
    exact (hf a i).bind ih

end Action

open SymbolAtlas.Action (Indifferent)

section Statements

variable {access : Access} (h : access.Steady)
include h

theorem describeRun_indifferent (run : Int) (projectRoot lsifVersion : Option String) :
    Indifferent access (describeRun run projectRoot lsifVersion) := by
  intro s a t hs
  obtain ⟨ha, rfl⟩ := describeRun_ok_iff.mp hs
  exact ⟨[], [], fun d r => describeRun_ok_iff.mpr ⟨h.allows ha, rfl⟩⟩

theorem addDocument_indifferent (run : Int) (uri : String) (languageId : Option String) :
    Indifferent access (addDocument run uri languageId) := by
  intro s a t hs
  obtain ⟨ha, hr, rfl, rfl⟩ := addDocument_ok_iff.mp hs
  exact ⟨[], [], fun d r => addDocument_ok_iff.mpr ⟨h.allows ha, hr, rfl, rfl⟩⟩

theorem addHover_indifferent (run : Int) (contents : String) :
    Indifferent access (addHover run contents) := by
  intro s a t hs
  obtain ⟨ha, hr, rfl, rfl⟩ := addHover_ok_iff.mp hs
  exact ⟨[], [], fun d r => addHover_ok_iff.mpr ⟨h.allows ha, hr, rfl, rfl⟩⟩

theorem addPackage_indifferent (run : Int) (name : String) (version manager : Option String) :
    Indifferent access (addPackage run name version manager) := by
  intro s a t hs
  obtain ⟨ha, hr, rfl, rfl⟩ := addPackage_ok_iff.mp hs
  exact ⟨[], [], fun d r => addPackage_ok_iff.mpr ⟨h.allows ha, hr, rfl, rfl⟩⟩

theorem addMoniker_indifferent (run : Int) (scheme identifier : String) (kind : Option String)
    (package : Option Int) :
    Indifferent access (addMoniker run scheme identifier kind package) := by
  intro s a t hs
  obtain ⟨ha, hr, rfl, rfl⟩ := addMoniker_ok_iff.mp hs
  exact ⟨[], [], fun d r => addMoniker_ok_iff.mpr ⟨h.allows ha, hr, rfl, rfl⟩⟩

theorem setPackage_indifferent (moniker package : Int) :
    Indifferent access (setPackage moniker package) := by
  intro s a t hs
  obtain ⟨ha, hr, rfl⟩ := setPackage_ok_iff.mp hs
  exact ⟨[], [], fun d r => setPackage_ok_iff.mpr ⟨h.allows ha, hr, rfl⟩⟩

theorem internSymbol_indifferent (scheme identifier : String) (kind : Option String) :
    Indifferent access (internSymbol scheme identifier kind) := by
  intro s a t hs
  obtain ⟨ha, rfl, rfl⟩ := internSymbol_ok_iff.mp hs
  exact ⟨[], [], fun d r => internSymbol_ok_iff.mpr ⟨h.allows ha, rfl, rfl⟩⟩

theorem linkSymbol_indifferent (moniker symbol : Int) :
    Indifferent access (linkSymbol moniker symbol) := by
  intro s a t hs
  obtain ⟨ha, hn, hr, rfl⟩ := linkSymbol_ok_iff.mp hs
  exact ⟨[], [], fun d r => linkSymbol_ok_iff.mpr ⟨h.allows ha, hn, hr, rfl⟩⟩

theorem addResultSet_indifferent (run : Int) : Indifferent access (addResultSet run) := by
  intro s a t hs
  obtain ⟨ha, hr, rfl, rfl⟩ := addResultSet_ok_iff.mp hs
  exact ⟨[], [], fun d r => addResultSet_ok_iff.mpr ⟨h.allows ha, hr, rfl, rfl⟩⟩

theorem setBucket_indifferent (resultSet : Int) (kind : BucketKind) (bucket : Int) :
    Indifferent access (setBucket resultSet kind bucket) := by
  intro s a t hs
  obtain ⟨ha, rfl⟩ := setBucket_ok_iff.mp hs
  exact ⟨[], [], fun d r => setBucket_ok_iff.mpr ⟨h.allows ha, rfl⟩⟩

theorem setHover_indifferent (resultSet hover : Int) :
    Indifferent access (setHover resultSet hover) := by
  intro s a t hs
  obtain ⟨ha, hr, rfl⟩ := setHover_ok_iff.mp hs
  exact ⟨[], [], fun d r => setHover_ok_iff.mpr ⟨h.allows ha, hr, rfl⟩⟩

theorem setMoniker_indifferent (resultSet moniker : Int) :
    Indifferent access (setMoniker resultSet moniker) := by
  intro s a t hs
  obtain ⟨ha, hr, rfl⟩ := setMoniker_ok_iff.mp hs
  exact ⟨[], [], fun d r => setMoniker_ok_iff.mpr ⟨h.allows ha, hr, rfl⟩⟩

theorem addRange_indifferent (document : Int) (span : Span) (resultSet : Option Int) :
    Indifferent access (addRange document span resultSet) := by
  intro s a t hs
  obtain ⟨ha, hr, rfl, rfl⟩ := addRange_ok_iff.mp hs
  exact ⟨[], [], fun d r => addRange_ok_iff.mpr ⟨h.allows ha, hr, rfl, rfl⟩⟩

theorem setResultSet_indifferent (range resultSet : Int) :
    Indifferent access (setResultSet range resultSet) := by
  intro s a t hs
  obtain ⟨ha, hr, rfl⟩ := setResultSet_ok_iff.mp hs
  exact ⟨[], [], fun d r => setResultSet_ok_iff.mpr ⟨h.allows ha, hr, rfl⟩⟩

theorem addDefinition_indifferent (item : Item) : Indifferent access (addDefinition item) := by
  intro s a t hs
  obtain ⟨ha, hr, rfl⟩ := addDefinition_ok_iff.mp hs
  exact ⟨[item], [], fun d r => addDefinition_ok_iff.mpr ⟨h.allows ha, hr, rfl⟩⟩

theorem addReference_indifferent (item : Item) (isDefinition : Bool) :
    Indifferent access (addReference item isDefinition) := by
  intro s a t hs
  obtain ⟨ha, hr, rfl⟩ := addReference_ok_iff.mp hs
  exact ⟨[], [{ item with isDefinition := isDefinition }],
    fun d r => addReference_ok_iff.mpr ⟨h.allows ha, hr, rfl⟩⟩

end Statements

namespace Ingestion

section Records

variable {access : Access} (h : access.Steady)
include h

theorem vertex_indifferent (g : Ingestion) (v : Vertex) : Indifferent access (g.vertex v) := by
  cases v with
  | metaData version projectRoot =>
    exact (describeRun_indifferent h _ _ _).bind fun _ => .pure _
  | document id uri languageId => exact (addDocument_indifferent h _ _ _).bind fun _ => .pure _
  | range id span => exact .pure _
  | resultSet id => exact (addResultSet_indifferent h _).bind fun _ => .pure _
  | hoverResult id result => exact (addHover_indifferent h _ _).bind fun _ => .pure _
  | packageInformation id name version manager =>
    exact (addPackage_indifferent h _ _ _ _).bind fun _ => .pure _
  | moniker id scheme identifier kind package =>
    refine (addMoniker_indifferent h _ _ _ _ _).bind fun row => ?_
    refine (internSymbol_indifferent h _ _ _).bind fun symbol => ?_
    exact (linkSymbol_indifferent h _ _).bind fun _ => .pure _
  | bucket kind id => exact .pure _
  | other => exact .pure _

theorem claim_indifferent (document : Int) (g : Ingestion) (id : Int) :
    Indifferent access (claim document g id) := by
  unfold claim
  split
  next => exact .pure _
  next => exact (addRange_indifferent h _ _ _).bind fun _ => .pure _

theorem next_indifferent (g : Ingestion) (outV inV : Int) :
    Indifferent access (g.next outV inV) := by
  unfold next
  split
  next => exact .pure _
  next =>
    split
    next => exact .pure _
    next => exact (setResultSet_indifferent h _ _).bind fun _ => .pure _
    next => exact .pure _

theorem bucket_indifferent (g : Ingestion) (kind : BucketKind) (outV inV : Int) :
    Indifferent access (g.bucket kind outV inV) := by
  unfold bucket
  dsimp only
  split
  next => exact .pure _
  next => exact (setBucket_indifferent h _ _ _).bind fun _ => .pure _

theorem item_indifferent (bucket : Int) (property : Option String) (g : Ingestion) (id : Int) :
    Indifferent access (item bucket property g id) := by
  unfold item
  split
  next => exact .pure _
  next =>
    dsimp only
    split
    next => exact (addDefinition_indifferent h _).bind fun _ => .pure _
    next => exact (addReference_indifferent h _ _).bind fun _ => .pure _

theorem edge_indifferent (g : Ingestion) (e : Edge) : Indifferent access (g.edge e) := by
  cases e with
  | contains outV inVs =>
    unfold edge
    dsimp only
    split
    next => exact .pure _
    next => exact .foldlM (claim_indifferent h _) inVs g
  | next outV inV => exact next_indifferent h g outV inV
  | moniker outV inV =>
    unfold edge
    dsimp only
    split
    next => exact (setMoniker_indifferent h _ _).bind fun _ => .pure _
    next => exact .pure _
  | packageInformation outV inV =>
    unfold edge
    dsimp only
    split
    next => exact (setPackage_indifferent h _ _).bind fun _ => .pure _
    next => exact .pure _
  | bucket kind outV inV => exact bucket_indifferent h g kind outV inV
  | hover outV inV =>
    unfold edge
    dsimp only
    split
    next => exact (setHover_indifferent h _ _).bind fun _ => .pure _
    next => exact .pure _
  | item outV inVs inV property => exact .foldlM (item_indifferent h outV property) _ g
  | other => exact .pure _

theorem line_indifferent (g : Ingestion) (number : Nat) (bytes : List UInt8) :
    Indifferent access (g.line number bytes) := by
  unfold line
  dsimp only
  split
  next => exact .pure _
  next =>
    split
    next => exact .pure _
    next element _ =>
      cases element with
      | vertex v => exact (vertex_indifferent h _ v).mapError _
      | edge e => exact (edge_indifferent h _ e).mapError _

theorem lines_indifferent (g : Ingestion) (number : Nat) (lines : List (List UInt8)) :
    Indifferent access (g.lines number lines) := by
  induction lines generalizing g number with
  | nil => exact .pure g
  | cons bytes rest ih =>
    exact (line_indifferent h g number bytes).bind fun g' => ih g' (number + 1)

end Records

end Ingestion

/-- Whether the edge puts ranges into a bucket. -/
def Edge.isItem : Edge → Bool
  | item _ _ _ _ => true
  | _ => false

namespace Ingestion

/-- The claimed ranges among some ids, as items of a bucket. -/
def itemsOf (g : Ingestion) (bucket : Int) (ids : List Int) : List Item :=
  ids.filterMap fun id => (g.known.claimed.get? id).map fun range =>
    ⟨g.run, bucket, range.document, range.row⟩

def definitionsOf (g : Ingestion) : Edge → List Item
  | .item outV inVs inV property =>
    if g.toDefinitions outV property then g.itemsOf outV (Edge.itemTargets inVs inV) else []
  | _ => []

def referencesOf (g : Ingestion) : Edge → List ReferenceItem
  | .item outV inVs inV property =>
    if g.toDefinitions outV property then []
    else (g.itemsOf outV (Edge.itemTargets inVs inV)).map fun item =>
      { item with isDefinition := Edge.isDefinitions property }
  | _ => []

variable {g h : Ingestion}

theorem itemsOf_edge_congr (hr : h.run = g.run) (hk : h.known = g.known) (e : Edge) :
    h.definitionsOf e = g.definitionsOf e ∧ h.referencesOf e = g.referencesOf e := by
  cases g
  cases h
  cases hr
  cases hk
  exact ⟨rfl, rfl⟩

theorem itemsOf_edge_cons (g : Ingestion) (bucket id : Int) (ids : List Int)
    (property : Option String) :
    g.definitionsOf (.item bucket (some (id :: ids)) none property) =
        g.definitionsOf (.item bucket (some [id]) none property) ++
          g.definitionsOf (.item bucket (some ids) none property) ∧
      g.referencesOf (.item bucket (some (id :: ids)) none property) =
        g.referencesOf (.item bucket (some [id]) none property) ++
          g.referencesOf (.item bucket (some ids) none property) := by
  have hitems : g.itemsOf bucket (id :: ids) = g.itemsOf bucket [id] ++ g.itemsOf bucket ids :=
    List.filterMap_append (l := [id])
  simp only [definitionsOf, referencesOf, Edge.itemTargets, hitems]
  split
  next => exact ⟨rfl, rfl⟩
  next => exact ⟨rfl, List.map_append⟩

end Ingestion

def Store.withItemsOf (s : Store) (g : Ingestion) (e : Edge) : Store :=
  s.withItems (s.definitionItems.insertAll (g.definitionsOf e))
    (s.referenceItems.insertAll (g.referencesOf e))

namespace Stage

theorem item_store (bucket : Int) (property : Option String) (p : Stage) (id : Int) :
    (item bucket property p id).store =
      p.store.withItemsOf p.ingestion (.item bucket (some [id]) none property) := by
  unfold item
  simp only [Store.withItemsOf, Ingestion.definitionsOf, Ingestion.referencesOf,
    Ingestion.itemsOf, Edge.itemTargets, List.filterMap_cons]
  cases p.known.claimed.get? id with
  | none =>
    simp only [Option.map_none]
    split <;> rfl
  | some range =>
    simp only [Option.map_some]
    split <;> rfl

theorem items_store (bucket : Int) (property : Option String) (ids : List Int) (p : Stage) :
    (ids.foldl (item bucket property) p).store =
      p.store.withItemsOf p.ingestion (.item bucket (some ids) none property) := by
  induction ids generalizing p with
  | nil =>
    simp only [Store.withItemsOf, Ingestion.definitionsOf, Ingestion.referencesOf]
    split <;> rfl
  | cons id rest ih =>
    obtain ⟨hrun, hknown⟩ := items_known bucket property [id] p
    obtain ⟨hd, hr⟩ := Ingestion.itemsOf_edge_congr hrun hknown
      (.item bucket (some rest) none property)
    obtain ⟨hd', hr'⟩ := p.ingestion.itemsOf_edge_cons bucket id rest property
    rw [List.foldl_cons, ih, item_store]
    unfold Store.withItemsOf
    rw [hd', hr', Table.insertAll_append, Table.insertAll_append, ← hd, ← hr]
    rfl

theorem line_items {bytes : List UInt8} {e : Edge} (he : edgeOfLine? bytes = some e)
    (hi : e.isItem = true) (p : Stage) :
    (p.line bytes).run = p.run ∧ (p.line bytes).known = p.known ∧
      (p.line bytes).store = p.store.withItemsOf p.ingestion e := by
  rw [line_edge he]
  cases e with
  | item outV inVs inV property =>
    obtain ⟨hrun, hknown⟩ := items_known outV property (Edge.itemTargets inVs inV)
      ((p.counting fun r => { r with lines := r.lines + 1 }).counting fun r =>
        { r with edges := r.edges + 1 })
    exact ⟨hrun, hknown, items_store outV property (Edge.itemTargets inVs inV) _⟩
  | _ => cases hi

end Stage

end SymbolAtlas
