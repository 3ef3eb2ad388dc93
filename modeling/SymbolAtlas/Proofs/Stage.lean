import SymbolAtlas.Proofs.Change

/-!
The stages of an ingest.  Whether a record can be applied depends on the terms on which the store
is used; what comes of it, if it can, depends only on the stage that it is applied to.
-/

namespace SymbolAtlas

/-- How far an ingest has come, and the store that it has filled so far. -/
structure Stage where
  ingestion : Ingestion
  store : Store

namespace Stage

abbrev known (p : Stage) : Known := p.ingestion.known

abbrev run (p : Stage) : Int := p.ingestion.run

/-- Changes what is known about ids, and the store. -/
def learn (p : Stage) (change : Known → Known) (store : Store) : Stage :=
  ⟨p.ingestion.learn change, store⟩

def dangling (p : Stage) : Stage := ⟨p.ingestion.dangling, p.store⟩

def ignored (p : Stage) : Stage := ⟨p.ingestion.ignored, p.store⟩

def writing (p : Stage) (store : Store) : Stage := ⟨p.ingestion, store⟩

def vertex (p : Stage) : Vertex → Stage
  | .metaData version projectRoot => p.writing (p.store.describing p.run projectRoot version)
  | .document id uri languageId =>
    p.learn (fun k => { k with documents := k.documents.insert id (p.store.documents.last + 1) })
      (p.store.withDocument p.run uri languageId)
  | .range id span =>
    p.learn (fun k => { k with unclaimed := k.unclaimed.insert id ⟨span, none⟩ }) p.store
  | .resultSet id =>
    p.learn (fun k => { k with resultSets := k.resultSets.insert id (p.store.resultSets.last + 1) })
      (p.store.withResultSet p.run)
  | .hoverResult id result =>
    p.learn (fun k => { k with hovers := k.hovers.insert id (p.store.hovers.last + 1) })
      (p.store.withHover p.run result.hoverText)
  | .packageInformation id name version manager =>
    p.learn (fun k => { k with packages := k.packages.insert id (p.store.packages.last + 1) })
      (p.store.withPackage p.run name version manager)
  | .moniker id scheme identifier kind package =>
    p.learn (fun k => { k with monikers := k.monikers.insert id (p.store.monikers.last + 1) })
      (p.store.withMoniker p.run scheme identifier kind (package.bind p.known.packages.get?))
  | .bucket kind id => p.learn (fun k => k.learnKind id kind) p.store
  | .other => p.ignored

def claim (document : Int) (p : Stage) (id : Int) : Stage :=
  match p.known.unclaimed.get? id with
  | none => p.dangling
  | some range =>
    p.learn
      (fun k =>
        { k with
          unclaimed := k.unclaimed.erase id
          claimed := k.claimed.insert id
            ⟨p.store.ranges.last + 1, document, range.resultSet⟩ })
      (p.store.withRange document range.span range.resultSet)

def next (p : Stage) (outV inV : Int) : Stage :=
  match p.known.resultSets.get? inV with
  | none => p.dangling
  | some resultSet =>
    match p.known.unclaimed.get? outV, p.known.claimed.get? outV with
    | some range, _ =>
      p.learn
        (fun k =>
          { k with
            unclaimed := k.unclaimed.insert outV { range with resultSet := some resultSet } })
        p.store
    | none, some range =>
      p.learn
        (fun k =>
          { k with claimed := k.claimed.insert outV { range with resultSet := some resultSet } })
        (p.store.settingResultSet range.row resultSet)
    | none, none => if p.known.resultSets.has outV then p.ignored else p.dangling

def bucket (p : Stage) (kind : BucketKind) (outV inV : Int) : Stage :=
  let p := p.learn (fun k => k.learnKind inV kind) p.store
  match p.known.resultSetOf? outV with
  | none => p.dangling
  | some resultSet => p.writing (p.store.settingBucket resultSet kind inV)

def item (bucket : Int) (property : Option String) (p : Stage) (id : Int) : Stage :=
  match p.known.claimed.get? id with
  | none => p.dangling
  | some range =>
    let row : Item := ⟨p.run, bucket, range.document, range.row⟩
    p.writing (if p.ingestion.toDefinitions bucket property then p.store.withDefinition row
      else p.store.withReference row (Edge.isDefinitions property))

def edge (p : Stage) : Edge → Stage
  | .contains outV inVs =>
    match p.known.documents.get? outV with
    | none => p.dangling
    | some document => inVs.foldl (claim document) p
  | .next outV inV => p.next outV inV
  | .moniker outV inV =>
    match p.known.resultSetOf? outV, p.known.monikers.get? inV with
    | some resultSet, some moniker => p.writing (p.store.settingMoniker resultSet moniker)
    | _, _ => p.dangling
  | .packageInformation outV inV =>
    match p.known.monikers.get? outV, p.known.packages.get? inV with
    | some moniker, some package => p.writing (p.store.settingPackage moniker package)
    | _, _ => p.dangling
  | .bucket kind outV inV => p.bucket kind outV inV
  | .hover outV inV =>
    match p.known.resultSetOf? outV, p.known.hovers.get? inV with
    | some resultSet, some hover => p.writing (p.store.settingHover resultSet hover)
    | _, _ => p.dangling
  | .item outV inVs inV property => (Edge.itemTargets inVs inV).foldl (item outV property) p
  | .other => p.ignored

def counting (p : Stage) (change : Report → Report) : Stage :=
  ⟨{ p.ingestion with report := change p.ingestion.report }, p.store⟩

def element (p : Stage) : Element → Stage
  | .vertex v => (p.counting fun r => { r with vertices := r.vertices + 1 }).vertex v
  | .edge e => (p.counting fun r => { r with edges := r.edges + 1 }).edge e

def line (p : Stage) (bytes : List UInt8) : Stage :=
  let p := p.counting fun r => { r with lines := r.lines + 1 }
  match trimLine bytes with
  | [] => p
  | text =>
    match Element.ofLine? text with
    | none => p.counting fun r => { r with malformedLines := r.malformedLines + 1 }
    | some element => p.element element

end Stage

variable {access : Access} {s t : Store} {g g' : Ingestion}

theorem foldlM_stage {f : Ingestion → Int → StoreAction Ingestion} {step : Stage → Int → Stage}
    (hf : ∀ {g g' : Ingestion} {id : Int} {s t : Store}, f g id access s = (.ok g', t) →
      step ⟨g, s⟩ id = ⟨g', t⟩)
    {ids : List Int} (h : ids.foldlM f g access s = (.ok g', t)) :
    ids.foldl step ⟨g, s⟩ = ⟨g', t⟩ := by
  induction ids generalizing g s with
  | nil =>
    obtain ⟨rfl, rfl⟩ := Action.pure_ok_iff.mp h
    rfl
  | cons id ids ih =>
    rw [List.foldlM_cons] at h
    obtain ⟨middle, u, hid, hrest⟩ := Action.bind_ok_iff.mp h
    rw [List.foldl_cons, hf hid]
    exact ih hrest

namespace Ingestion

theorem vertex_stage {v : Vertex} (h : g.vertex v access s = (.ok g', t)) :
    Stage.vertex ⟨g, s⟩ v = ⟨g', t⟩ := by
  cases v with
  | metaData version projectRoot =>
    obtain ⟨_, u, hd, hp⟩ := Action.bind_ok_iff.mp h
    obtain ⟨rfl, rfl⟩ := Action.pure_ok_iff.mp hp
    obtain ⟨-, rfl⟩ := describeRun_ok_iff.mp hd
    rfl
  | document id uri languageId =>
    obtain ⟨row, u, hd, hp⟩ := Action.bind_ok_iff.mp h
    obtain ⟨rfl, rfl⟩ := Action.pure_ok_iff.mp hp
    obtain ⟨-, -, rfl, rfl⟩ := addDocument_ok_iff.mp hd
    rfl
  | range id span =>
    obtain ⟨rfl, rfl⟩ := Action.pure_ok_iff.mp h
    rfl
  | resultSet id =>
    obtain ⟨row, u, hd, hp⟩ := Action.bind_ok_iff.mp h
    obtain ⟨rfl, rfl⟩ := Action.pure_ok_iff.mp hp
    obtain ⟨-, -, rfl, rfl⟩ := addResultSet_ok_iff.mp hd
    rfl
  | hoverResult id result =>
    obtain ⟨row, u, hd, hp⟩ := Action.bind_ok_iff.mp h
    obtain ⟨rfl, rfl⟩ := Action.pure_ok_iff.mp hp
    obtain ⟨-, -, rfl, rfl⟩ := addHover_ok_iff.mp hd
    rfl
  | packageInformation id name version manager =>
    obtain ⟨row, u, hd, hp⟩ := Action.bind_ok_iff.mp h
    obtain ⟨rfl, rfl⟩ := Action.pure_ok_iff.mp hp
    obtain ⟨-, -, rfl, rfl⟩ := addPackage_ok_iff.mp hd
    rfl
  | moniker id scheme identifier kind package =>
    obtain ⟨row, u, hm, h⟩ := Action.bind_ok_iff.mp h
    obtain ⟨symbol, v, hs, h⟩ := Action.bind_ok_iff.mp h
    obtain ⟨_, w, hl, hp⟩ := Action.bind_ok_iff.mp h
    obtain ⟨rfl, rfl⟩ := Action.pure_ok_iff.mp hp
    obtain ⟨-, -, rfl, rfl⟩ := addMoniker_ok_iff.mp hm
    obtain ⟨-, rfl, rfl⟩ := internSymbol_ok_iff.mp hs
    obtain ⟨-, -, -, rfl⟩ := linkSymbol_ok_iff.mp hl
    rfl
  | bucket kind id =>
    obtain ⟨rfl, rfl⟩ := Action.pure_ok_iff.mp h
    rfl
  | other =>
    obtain ⟨rfl, rfl⟩ := Action.pure_ok_iff.mp h
    rfl

theorem claim_stage {document id : Int} (h : claim document g id access s = (.ok g', t)) :
    Stage.claim document ⟨g, s⟩ id = ⟨g', t⟩ := by
  unfold claim at h
  unfold Stage.claim
  cases hu : g.known.unclaimed.get? id with
  | none =>
    simp only [hu] at h ⊢
    obtain ⟨rfl, rfl⟩ := Action.pure_ok_iff.mp h
    rfl
  | some range =>
    simp only [hu] at h ⊢
    obtain ⟨row, u, ha, hp⟩ := Action.bind_ok_iff.mp h
    obtain ⟨rfl, rfl⟩ := Action.pure_ok_iff.mp hp
    obtain ⟨-, -, rfl, rfl⟩ := addRange_ok_iff.mp ha
    rfl

theorem next_stage {outV inV : Int} (h : g.next outV inV access s = (.ok g', t)) :
    Stage.next ⟨g, s⟩ outV inV = ⟨g', t⟩ := by
  unfold next at h
  unfold Stage.next
  cases hs : g.known.resultSets.get? inV with
  | none =>
    simp only [hs] at h ⊢
    obtain ⟨rfl, rfl⟩ := Action.pure_ok_iff.mp h
    rfl
  | some resultSet =>
    simp only [hs] at h ⊢
    cases hu : g.known.unclaimed.get? outV with
    | some range =>
      simp only [hu] at h ⊢
      obtain ⟨rfl, rfl⟩ := Action.pure_ok_iff.mp h
      rfl
    | none =>
      cases hc : g.known.claimed.get? outV with
      | some range =>
        simp only [hu, hc] at h ⊢
        obtain ⟨_, u, ha, hp⟩ := Action.bind_ok_iff.mp h
        obtain ⟨rfl, rfl⟩ := Action.pure_ok_iff.mp hp
        obtain ⟨-, -, rfl⟩ := setResultSet_ok_iff.mp ha
        rfl
      | none =>
        simp only [hu, hc] at h ⊢
        obtain ⟨rfl, rfl⟩ := Action.pure_ok_iff.mp h
        split
        next => rfl
        next => rfl

theorem bucket_stage {kind : BucketKind} {outV inV : Int}
    (h : g.bucket kind outV inV access s = (.ok g', t)) :
    Stage.bucket ⟨g, s⟩ kind outV inV = ⟨g', t⟩ := by
  unfold bucket at h
  unfold Stage.bucket
  cases hr : (g.learn fun k => k.learnKind inV kind).known.resultSetOf? outV with
  | none =>
    simp only [Stage.learn, Stage.known, hr] at h ⊢
    obtain ⟨rfl, rfl⟩ := Action.pure_ok_iff.mp h
    rfl
  | some resultSet =>
    simp only [Stage.learn, Stage.known, hr] at h ⊢
    obtain ⟨_, u, ha, hp⟩ := Action.bind_ok_iff.mp h
    obtain ⟨rfl, rfl⟩ := Action.pure_ok_iff.mp hp
    obtain ⟨-, rfl⟩ := setBucket_ok_iff.mp ha
    rfl

theorem item_stage {bucket id : Int} {property : Option String}
    (h : item bucket property g id access s = (.ok g', t)) :
    Stage.item bucket property ⟨g, s⟩ id = ⟨g', t⟩ := by
  unfold item at h
  unfold Stage.item
  cases hc : g.known.claimed.get? id with
  | none =>
    simp only [hc] at h ⊢
    obtain ⟨rfl, rfl⟩ := Action.pure_ok_iff.mp h
    rfl
  | some range =>
    simp only [hc] at h ⊢
    by_cases hd : g.toDefinitions bucket property = true
    · rw [if_pos hd] at h ⊢
      obtain ⟨_, u, ha, hp⟩ := Action.bind_ok_iff.mp h
      obtain ⟨rfl, rfl⟩ := Action.pure_ok_iff.mp hp
      obtain ⟨-, -, rfl⟩ := addDefinition_ok_iff.mp ha
      rfl
    · rw [if_neg hd] at h ⊢
      obtain ⟨_, u, ha, hp⟩ := Action.bind_ok_iff.mp h
      obtain ⟨rfl, rfl⟩ := Action.pure_ok_iff.mp hp
      obtain ⟨-, -, rfl⟩ := addReference_ok_iff.mp ha
      rfl

theorem joined_stage {outRow inRow : Option Int} {write : Int → Int → StoreAction Unit}
    {change : Int → Int → Store}
    (hw : ∀ {a b : Int} {u : Store}, write a b access s = (.ok (), u) → change a b = u)
    (h : (match outRow, inRow with
      | some a, some b => do
        write a b
        return g
      | _, _ => return g.dangling : StoreAction Ingestion) access s = (.ok g', t)) :
    (match outRow, inRow with
      | some a, some b => Stage.writing ⟨g, s⟩ (change a b)
      | _, _ => Stage.dangling ⟨g, s⟩) = ⟨g', t⟩ := by
  cases outRow with
  | none =>
    obtain ⟨rfl, rfl⟩ := Action.pure_ok_iff.mp h
    rfl
  | some a =>
    cases inRow with
    | none =>
      obtain ⟨rfl, rfl⟩ := Action.pure_ok_iff.mp h
      rfl
    | some b =>
      obtain ⟨_, u, ha, hp⟩ := Action.bind_ok_iff.mp h
      obtain ⟨rfl, rfl⟩ := Action.pure_ok_iff.mp hp
      rw [← hw ha]
      rfl

theorem edge_stage {e : Edge} (h : g.edge e access s = (.ok g', t)) :
    Stage.edge ⟨g, s⟩ e = ⟨g', t⟩ := by
  cases e with
  | contains outV inVs =>
    unfold edge at h
    unfold Stage.edge
    cases hd : g.known.documents.get? outV with
    | none =>
      simp only [hd] at h ⊢
      obtain ⟨rfl, rfl⟩ := Action.pure_ok_iff.mp h
      rfl
    | some document =>
      simp only [hd] at h ⊢
      exact foldlM_stage claim_stage h
  | next outV inV => exact next_stage h
  | moniker outV inV => exact joined_stage (fun ha => (setMoniker_ok_iff.mp ha).2.2) h
  | packageInformation outV inV => exact joined_stage (fun ha => (setPackage_ok_iff.mp ha).2.2) h
  | bucket kind outV inV => exact bucket_stage h
  | hover outV inV => exact joined_stage (fun ha => (setHover_ok_iff.mp ha).2.2) h
  | item outV inVs inV property => exact foldlM_stage item_stage h
  | other =>
    obtain ⟨rfl, rfl⟩ := Action.pure_ok_iff.mp h
    rfl

theorem element_stage {e : Element} (h : g.element e access s = (.ok g', t)) :
    Stage.element ⟨g, s⟩ e = ⟨g', t⟩ := by
  cases e with
  | vertex v => exact vertex_stage h
  | edge e => exact edge_stage h

theorem line_stage {number : Nat} {bytes : List UInt8}
    (h : g.line number bytes access s = (.ok g', t)) :
    Stage.line ⟨g, s⟩ bytes = ⟨g', t⟩ := by
  unfold line at h
  unfold Stage.line
  cases ht : trimLine bytes with
  | nil =>
    simp only [ht] at h ⊢
    obtain ⟨rfl, rfl⟩ := Action.pure_ok_iff.mp h
    rfl
  | cons b rest =>
    cases he : Element.ofLine? (b :: rest) with
    | none =>
      simp only [ht, he] at h ⊢
      obtain ⟨rfl, rfl⟩ := Action.pure_ok_iff.mp h
      rfl
    | some element =>
      simp only [ht, he] at h ⊢
      exact element_stage (Action.mapError_ok_iff.mp h)

theorem lines_stage {number : Nat} {lines : List (List UInt8)}
    (h : g.lines number lines access s = (.ok g', t)) :
    lines.foldl Stage.line ⟨g, s⟩ = ⟨g', t⟩ := by
  induction lines generalizing number g s with
  | nil =>
    obtain ⟨rfl, rfl⟩ := Action.pure_ok_iff.mp h
    rfl
  | cons bytes rest ih =>
    obtain ⟨middle, u, hl, hr⟩ := Action.bind_ok_iff.mp h
    rw [List.foldl_cons, line_stage hl]
    exact ih hr

end Ingestion

/-- A dump that is stored has no failure in it, and its lines lead from an empty run to the
stage whose counts are reported. -/
theorem ingestGraph_stage {about : RunMeta} {stream : ByteStream} {report : Report}
    (h : ingestGraph about stream access s = (.ok report, t)) :
    stream.failure = none ∧ ∃ p : Stage, stream.lines.foldl Stage.line
        ⟨.start (s.runs.last + 1), s.withRun about (about.createdAt.getD access.clock)⟩ = p ∧
      p.ingestion.closingReport = report ∧ p.store = t := by
  obtain ⟨-, h, -⟩ := Action.transaction_ok_iff.mp h
  obtain ⟨run, u, hr, h⟩ := Action.bind_ok_iff.mp h
  obtain ⟨-, rfl, rfl⟩ := addRun_ok_iff.mp (Action.mapError_ok_iff.mp hr)
  obtain ⟨g, v, hs, hp⟩ := Action.bind_ok_iff.mp h
  obtain ⟨rfl, rfl⟩ := Action.pure_ok_iff.mp hp
  obtain ⟨g', w, hl, h⟩ := Action.bind_ok_iff.mp hs
  cases hf : stream.failure with
  | some message =>
    simp only [hf] at h
    simp [Action.fail] at h
  | none =>
    simp only [hf] at h
    obtain ⟨rfl, rfl⟩ := Action.pure_ok_iff.mp h
    exact ⟨rfl, ⟨g', w⟩, Ingestion.lines_stage hl, rfl, rfl⟩

/-- A change of the counts of a report and of nothing else. -/
def Report.OnlyCounts (change : Report → Report) : Prop :=
  ∀ r, (change r).run = r.run ∧ (change r).derivation = r.derivation ∧
    (change r).derivationError = r.derivationError

namespace Stage

/-- What holds on through everything that one record can do to a stage. -/
structure Kept (motive : Stage → Prop) : Prop where
  counting : ∀ {p : Stage} (change : Report → Report), Report.OnlyCounts change → motive p →
    motive (p.counting change)
  vertex : ∀ {p : Stage} (v : Vertex), motive p → motive (p.vertex v)
  claim : ∀ {p : Stage} {outV document : Int} (id : Int),
    p.known.documents.get? outV = some document → motive p → motive (p.claim document id)
  next : ∀ {p : Stage} (outV inV : Int), motive p → motive (p.next outV inV)
  moniker : ∀ {p : Stage} {outV inV resultSet moniker : Int},
    p.known.resultSetOf? outV = some resultSet → p.known.monikers.get? inV = some moniker →
    motive p → motive (p.writing (p.store.settingMoniker resultSet moniker))
  package : ∀ {p : Stage} {outV inV moniker package : Int},
    p.known.monikers.get? outV = some moniker → p.known.packages.get? inV = some package →
    motive p → motive (p.writing (p.store.settingPackage moniker package))
  bucket : ∀ {p : Stage} (kind : BucketKind) (outV inV : Int), motive p →
    motive (p.bucket kind outV inV)
  hover : ∀ {p : Stage} {outV inV resultSet hover : Int},
    p.known.resultSetOf? outV = some resultSet → p.known.hovers.get? inV = some hover →
    motive p → motive (p.writing (p.store.settingHover resultSet hover))
  item : ∀ {p : Stage} (bucket : Int) (property : Option String) (id : Int), motive p →
    motive (p.item bucket property id)

theorem claim_documents (document : Int) (p : Stage) (id : Int) :
    (p.claim document id).known.documents = p.known.documents := by
  unfold claim
  split
  next => rfl
  next => rfl

variable {motive : Stage → Prop} {p : Stage}

theorem Kept.dangling (k : Kept motive) (h : motive p) : motive p.dangling :=
  k.counting (fun r => { r with danglingReferences := r.danglingReferences + 1 })
    (fun _ => ⟨rfl, rfl, rfl⟩) h

theorem Kept.ignored (k : Kept motive) (h : motive p) : motive p.ignored :=
  k.counting (fun r => { r with ignoredRecords := r.ignoredRecords + 1 })
    (fun _ => ⟨rfl, rfl, rfl⟩) h

theorem Kept.edge (k : Kept motive) (e : Edge) (h : motive p) : motive (p.edge e) := by
  cases e with
  | contains outV inVs =>
    simp only [Stage.edge]
    split
    next => exact k.dangling h
    next document hd =>
      -- The document stays known while it claims its ranges.
      have both := List.foldlRecOn (motive := fun q : Stage =>
          motive q ∧ q.known.documents.get? outV = some document) inVs (Stage.claim document)
        ⟨h, hd⟩ fun q hq id _ => ⟨k.claim id hq.2 hq.1, (claim_documents document q id).symm ▸ hq.2⟩
      exact both.1
  | next outV inV => exact k.next outV inV h
  | moniker outV inV =>
    simp only [Stage.edge]
    split
    next hr hm => exact k.moniker hr hm h
    next => exact k.dangling h
  | packageInformation outV inV =>
    simp only [Stage.edge]
    split
    next hm hk => exact k.package hm hk h
    next => exact k.dangling h
  | bucket kind outV inV => exact k.bucket kind outV inV h
  | hover outV inV =>
    simp only [Stage.edge]
    split
    next hr hh => exact k.hover hr hh h
    next => exact k.dangling h
  | item outV inVs inV property =>
    exact List.foldlRecOn (motive := motive) _ (Stage.item outV property) h
      fun q hq id _ => k.item outV property id hq
  | other => exact k.ignored h

theorem Kept.element (k : Kept motive) (e : Element) (h : motive p) : motive (p.element e) := by
  cases e with
  | vertex v => exact k.vertex v (k.counting _ (fun _ => ⟨rfl, rfl, rfl⟩) h)
  | edge e => exact k.edge e (k.counting _ (fun _ => ⟨rfl, rfl, rfl⟩) h)

theorem Kept.line (k : Kept motive) (bytes : List UInt8) (h : motive p) :
    motive (p.line bytes) := by
  have hl : motive (p.counting fun r => { r with lines := r.lines + 1 }) :=
    k.counting _ (fun _ => ⟨rfl, rfl, rfl⟩) h
  unfold Stage.line
  split
  next => exact hl
  next =>
    split
    next => exact k.counting _ (fun _ => ⟨rfl, rfl, rfl⟩) hl
    next element _ => exact k.element element hl

/-- What every record keeps, a whole dump keeps. -/
theorem Kept.lines (k : Kept motive) (lines : List (List UInt8)) (h : motive p) :
    motive (lines.foldl Stage.line p) :=
  List.foldlRecOn (motive := motive) lines Stage.line h fun _ hq bytes _ => k.line bytes hq

theorem Kept.and {motive motive' : Stage → Prop} (k : Kept motive) (k' : Kept motive') :
    Kept fun p => motive p ∧ motive' p where
  counting change hc h := ⟨k.counting change hc h.1, k'.counting change hc h.2⟩
  vertex v h := ⟨k.vertex v h.1, k'.vertex v h.2⟩
  claim id hd h := ⟨k.claim id hd h.1, k'.claim id hd h.2⟩
  next outV inV h := ⟨k.next outV inV h.1, k'.next outV inV h.2⟩
  moniker hr hm h := ⟨k.moniker hr hm h.1, k'.moniker hr hm h.2⟩
  package hm hk h := ⟨k.package hm hk h.1, k'.package hm hk h.2⟩
  bucket kind outV inV h := ⟨k.bucket kind outV inV h.1, k'.bucket kind outV inV h.2⟩
  hover hr hh h := ⟨k.hover hr hh h.1, k'.hover hr hh h.2⟩
  item bucket property id h := ⟨k.item bucket property id h.1, k'.item bucket property id h.2⟩

/-- The run of an ingest never changes, and nothing is said of a derivation before there is
one. -/
structure Awaits (number : Int) (p : Stage) : Prop where
  run : p.run = number
  report : p.ingestion.report.run = number
  derivation : p.ingestion.report.derivation = none
  derivationError : p.ingestion.report.derivationError = none

theorem awaits_kept (number : Int) : Kept (Awaits number) where
  counting _ hc h := ⟨h.run, (hc _).1.trans h.report, (hc _).2.1.trans h.derivation,
    (hc _).2.2.trans h.derivationError⟩
  vertex v h := by cases v <;> exact ⟨h.run, h.report, h.derivation, h.derivationError⟩
  claim id _ h := by
    unfold Stage.claim
    split <;> exact ⟨h.run, h.report, h.derivation, h.derivationError⟩
  next outV inV h := by
    unfold Stage.next
    repeat' split
    all_goals exact ⟨h.run, h.report, h.derivation, h.derivationError⟩
  moniker _ _ h := ⟨h.run, h.report, h.derivation, h.derivationError⟩
  package _ _ h := ⟨h.run, h.report, h.derivation, h.derivationError⟩
  bucket kind outV inV h := by
    unfold Stage.bucket
    dsimp only
    split <;> exact ⟨h.run, h.report, h.derivation, h.derivationError⟩
  hover _ _ h := ⟨h.run, h.report, h.derivation, h.derivationError⟩
  item bucket property id h := by
    unfold Stage.item
    split <;> exact ⟨h.run, h.report, h.derivation, h.derivationError⟩

end Stage

end SymbolAtlas
