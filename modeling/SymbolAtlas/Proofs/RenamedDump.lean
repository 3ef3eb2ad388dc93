import Mathlib.Data.List.Forall2
import SymbolAtlas.Proofs.Grounded
import SymbolAtlas.Proofs.RenamedStore
import SymbolAtlas.Proofs.Links

/-!
A dump with other ids, and with lines between its own that say nothing: an ingest knows the same
under the other ids, and counts the lines that say nothing.
-/

namespace SymbolAtlas

namespace IdMap

variable {α : Type} {name : Int → Int} (m : IdMap α)

/-- The map with its values under other ids. -/
def renamed (name : Int → Int) : IdMap α := ⟨m.pairs.map fun p => (name p.1, p.2)⟩

theorem size_renamed : (m.renamed name).size = m.size := List.length_map _

variable (h : Function.Injective name)
include h

theorem get?_renamed (id : Int) : (m.renamed name).get? (name id) = m.get? id := by
  unfold get? renamed
  induction m.pairs with
  | nil => rfl
  | cons p rest ih =>
    obtain ⟨k, a⟩ := p
    simp only [List.map_cons, lookup_cons, ih, h.eq_iff]

theorem has_renamed (id : Int) : (m.renamed name).has (name id) = m.has id := by
  rw [has, get?_renamed m h, has]

theorem erase_renamed (id : Int) :
    (m.renamed name).erase (name id) = (m.erase id).renamed name := by
  unfold erase renamed
  rw [List.filter_map]
  congr 2
  refine List.filter_congr fun p _ => ?_
  simp [bne, h.eq_iff]

theorem insert_renamed (id : Int) (value : α) :
    (m.renamed name).insert (name id) value = (m.insert id value).renamed name := by
  unfold insert
  rw [erase_renamed m h]
  rfl

end IdMap

namespace Known

def renamed (k : Known) (name : Int → Int) : Known where
  documents := k.documents.renamed name
  resultSets := k.resultSets.renamed name
  monikers := k.monikers.renamed name
  hovers := k.hovers.renamed name
  packages := k.packages.renamed name
  unclaimed := k.unclaimed.renamed name
  claimed := k.claimed.renamed name
  kinds := k.kinds.renamed name

variable {name : Int → Int} (k : Known) (h : Function.Injective name)
include h

theorem resultSetOf?_renamed (id : Int) :
    (k.renamed name).resultSetOf? (name id) = k.resultSetOf? id := by
  unfold resultSetOf? renamed
  simp only [IdMap.get?_renamed _ h]

theorem kindOf?_renamed (id : Int) : (k.renamed name).kindOf? (name id) = k.kindOf? id :=
  k.kinds.get?_renamed h id

theorem learnKind_renamed (bucket : Int) (kind : BucketKind) :
    (k.renamed name).learnKind (name bucket) kind = (k.learnKind bucket kind).renamed name := by
  have hk : (k.renamed name).kinds = k.kinds.renamed name := rfl
  unfold learnKind
  rw [hk, IdMap.has_renamed _ h, IdMap.insert_renamed _ h]
  split <;> rfl

end Known

def Vertex.renamed (name : Int → Int) : Vertex → Vertex
  | metaData version projectRoot => metaData version projectRoot
  | document id uri languageId => document (name id) uri languageId
  | range id span => range (name id) span
  | resultSet id => resultSet (name id)
  | moniker id scheme identifier kind package =>
    moniker (name id) scheme identifier kind (package.map name)
  | hoverResult id result => hoverResult (name id) result
  | packageInformation id text version manager => packageInformation (name id) text version manager
  | bucket kind id => bucket kind (name id)
  | other => other

def Edge.renamed (name : Int → Int) : Edge → Edge
  | contains outV inVs => contains (name outV) (inVs.map name)
  | next outV inV => next (name outV) (name inV)
  | moniker outV inV => moniker (name outV) (name inV)
  | packageInformation outV inV => packageInformation (name outV) (name inV)
  | bucket kind outV inV => bucket kind (name outV) (name inV)
  | hover outV inV => hover (name outV) (name inV)
  | item outV inVs inV property =>
    item (name outV) (inVs.map (List.map name)) (inV.map name) property
  | other => other

theorem Edge.itemTargets_map (name : Int → Int) (inVs : Option (List Int)) (inV : Option Int) :
    itemTargets (inVs.map (List.map name)) (inV.map name) = (itemTargets inVs inV).map name := by
  cases inVs <;> cases inV <;> rfl

namespace Element

/-- The record with other ids, in every place where it has one. -/
def renamed (name : Int → Int) : Element → Element
  | vertex v => vertex (v.renamed name)
  | edge e => edge (e.renamed name)

theorem describe_renamed (name : Int → Int) (e : Element) :
    (e.renamed name).describe = e.describe := by
  cases e with
  | vertex v => cases v <;> rfl
  | edge e => cases e <;> rfl

theorem renamed_id (e : Element) : e.renamed id = e := by
  cases e with
  | vertex v => cases v <;> simp [renamed, Vertex.renamed]
  | edge e => cases e <;> simp [renamed, Edge.renamed]

end Element

/-- What can be on a line that says nothing: blanks, what is no record, and records with a label
that has no meaning here. -/
inductive Noise where
  | blank
  | malformed
  | vertex
  | edge
deriving DecidableEq

/-- What is on a line that says nothing.  The blanks around it are left out, as an ingest does. -/
def Noise.ofLine? (bytes : List UInt8) : Option Noise :=
  match trimLine bytes with
  | [] => some blank
  | text =>
    match Element.ofLine? text with
    | none => some malformed
    | some (.vertex .other) => some vertex
    | some (.edge .other) => some edge
    | some _ => none

/-- The report of an ingest that has met some lines more that say nothing. -/
def Report.withNoise (r : Report) (noise : List Noise) : Report :=
  { r with
    lines := r.lines + noise.length
    vertices := r.vertices + noise.count .vertex
    edges := r.edges + noise.count .edge
    malformedLines := r.malformedLines + noise.count .malformed
    ignoredRecords := r.ignoredRecords + (noise.count .vertex + noise.count .edge) }

theorem Report.withNoise_append (r : Report) (noise more : List Noise) :
    r.withNoise (noise ++ more) = (r.withNoise noise).withNoise more := by
  simp only [withNoise, List.length_append, List.count_append, Nat.add_assoc, mk.injEq, true_and,
    and_true]
  omega

open SymbolAtlas.Action (Carried)

/-- The second line says the same as the first, but with other ids. -/
structure RenamedLine (name : Int → Int) (bytes bytes' : List UInt8) : Prop where
  blank : trimLine bytes' = [] ↔ trimLine bytes = []
  record : Element.ofLine? (trimLine bytes') =
    (Element.ofLine? (trimLine bytes)).map (Element.renamed name)

/-- The error with another number for its line. -/
def IngestError.renumbered (shift : Nat → Nat) : IngestError → IngestError
  | stream line message => stream (shift line) message
  | storage line context source => storage (shift line) context source
  | transaction source => transaction source
  | derivation run source => derivation run source

/-- What holds on through an ingest of the run whose buckets are renamed, and sees to it that it
writes into result sets of that run only. -/
structure StoreRenaming.Keeps (c : StoreRenaming) (motive : Stage → Prop) : Prop where
  kept : Stage.Kept motive
  run : ∀ {p : Stage}, motive p → p.run = c.run
  owns : ∀ {p : Stage} {id row : Int}, motive p → p.known.resultSetOf? id = some row →
    c.Owns p.store row

namespace Ingestion

/-- The ingest as it would be if ids were other ones and it had met some lines more. -/
def renamed (name : Int → Int) (noise : List Noise) (g : Ingestion) : Ingestion where
  run := g.run
  known := g.known.renamed name
  report := g.report.withNoise noise

theorem line_noise {bytes : List UInt8} {noise : Noise} (h : Noise.ofLine? bytes = some noise)
    (g : Ingestion) (number : Nat) (access : Access) (s : Store) :
    g.line number bytes access s =
      (.ok { g with report := g.report.withNoise [noise] }, s) := by
  unfold Noise.ofLine? at h
  unfold line
  cases ht : trimLine bytes with
  | nil =>
    simp only [ht] at h
    cases h
    rfl
  | cons first rest =>
    simp only [ht] at h
    cases he : Element.ofLine? (first :: rest) with
    | none =>
      simp only [he] at h ⊢
      cases h
      rfl
    | some element =>
      simp only [he] at h ⊢
      cases element with
      | vertex v =>
        cases v with
        | other =>
          cases h
          rfl
        | _ => cases h
      | edge e =>
        cases e with
        | other =>
          cases h
          rfl
        | _ => cases h

variable {c : StoreRenaming} {noise : List Noise}

theorem renamed_counting (name : Int → Int) (noise : List Noise) (g : Ingestion)
    (change : Report → Report)
    (h : change (g.report.withNoise noise) = (change g.report).withNoise noise) :
    { g.renamed name noise with report := change (g.renamed name noise).report } =
      { g with report := change g.report }.renamed name noise := by
  simp only [renamed, h]

theorem renamed_closingReport (name : Int → Int) (noise : List Noise) (g : Ingestion) :
    (g.renamed name noise).closingReport = g.closingReport.withNoise noise := by
  have hsize : (g.renamed name noise).known.unclaimed.size = g.known.unclaimed.size :=
    IdMap.size_renamed _
  unfold closingReport
  rw [hsize]
  rfl

theorem renamed_ignored (g : Ingestion) :
    (g.renamed c.name noise).ignored = g.ignored.renamed c.name noise := by
  simp only [ignored, renamed, Report.withNoise, Nat.add_right_comm]

theorem renamed_learn {g : Ingestion} {change change' : Known → Known}
    (h : change' (g.known.renamed c.name) = (change g.known).renamed c.name) :
    (g.renamed c.name noise).learn change' = (g.learn change).renamed c.name noise := by
  simp only [learn, renamed, h]

theorem joined_carried {a b : Access} {s : Store} {g : Ingestion}
    {outRow inRow : Option Int} {write : Int → Int → StoreAction Unit}
    (hw : ∀ row row', Carried c.store a b id id s (write row row') (write row row')) :
    Carried c.store a b id (renamed c.name noise) s
      (match outRow, inRow with
        | some row, some row' => do
          write row row'
          return g
        | _, _ => return g.dangling : StoreAction Ingestion)
      (match outRow, inRow with
        | some row, some row' => do
          write row row'
          return g.renamed c.name noise
        | _, _ => return (g.renamed c.name noise).dangling : StoreAction Ingestion) := by
  split
  next => exact (hw _ _).bind fun _ _ _ => .pure rfl
  next => exact .pure rfl

section Records

variable {a b : Access} (h : a.Alike c.store b) {s : Store}
include h

theorem vertex_carried (g : Ingestion) (v : Vertex) :
    Carried c.store a b id (renamed c.name noise) s (g.vertex v)
      ((g.renamed c.name noise).vertex (v.renamed c.name)) := by
  have hname := c.injective
  cases v with
  | metaData version projectRoot =>
    exact (describeRun_carried h s _ _ _).bind fun _ _ _ => .pure rfl
  | document id uri languageId =>
    refine (addDocument_carried h s _ _ _).bind fun row _ _ => .pure (renamed_learn ?_)
    simp only [Known.renamed, IdMap.insert_renamed _ hname]
    rfl
  | range id span =>
    refine .pure (renamed_learn ?_)
    simp only [Known.renamed, IdMap.insert_renamed _ hname]
  | resultSet id =>
    refine (addResultSet_carried h s _).bind fun row _ _ => .pure (renamed_learn ?_)
    simp only [Known.renamed, IdMap.insert_renamed _ hname]
    rfl
  | hoverResult id result =>
    refine (addHover_carried h s _ _).bind fun row _ _ => .pure (renamed_learn ?_)
    simp only [Known.renamed, IdMap.insert_renamed _ hname]
    rfl
  | packageInformation id text version manager =>
    refine (addPackage_carried h s _ _ _ _).bind fun row _ _ => .pure (renamed_learn ?_)
    simp only [Known.renamed, IdMap.insert_renamed _ hname]
    rfl
  | moniker id scheme identifier kind package =>
    have hpackage : (package.map c.name).bind (g.renamed c.name noise).known.packages.get? =
        package.bind g.known.packages.get? := by
      cases package with
      | none => rfl
      | some id => exact IdMap.get?_renamed _ hname id
    simp only [vertex, Vertex.renamed, hpackage]
    refine (addMoniker_carried h s _ _ _ _ _).bind fun row t _ => ?_
    refine (internSymbol_carried h t _ _ _).bind fun symbol u _ => ?_
    refine (linkSymbol_carried h u _ _).bind fun _ _ _ => .pure (renamed_learn ?_)
    simp only [Known.renamed, IdMap.insert_renamed _ hname]
    rfl
  | bucket kind id => exact .pure (renamed_learn (g.known.learnKind_renamed hname id kind))
  | other => exact .pure (renamed_ignored g)

theorem claim_carried (document : Int) (g : Ingestion) (target : Int) :
    Carried c.store a b id (renamed c.name noise) s (claim document g target)
      (claim document (g.renamed c.name noise) (c.name target)) := by
  have hname := c.injective
  have hget : (g.renamed c.name noise).known.unclaimed.get? (c.name target) =
      g.known.unclaimed.get? target := IdMap.get?_renamed _ hname target
  unfold claim
  rw [hget]
  cases g.known.unclaimed.get? target with
  | none => exact .pure rfl
  | some range =>
    refine (addRange_carried h s _ _ _).bind fun row _ _ => .pure (renamed_learn ?_)
    simp only [Known.renamed, IdMap.insert_renamed _ hname, IdMap.erase_renamed _ hname]
    rfl

theorem next_carried (g : Ingestion) (outV inV : Int) :
    Carried c.store a b id (renamed c.name noise) s (g.next outV inV)
      ((g.renamed c.name noise).next (c.name outV) (c.name inV)) := by
  have hname := c.injective
  have hset : (g.renamed c.name noise).known.resultSets.get? (c.name inV) =
      g.known.resultSets.get? inV := IdMap.get?_renamed _ hname inV
  have hout : (g.renamed c.name noise).known.resultSets.has (c.name outV) =
      g.known.resultSets.has outV := IdMap.has_renamed _ hname outV
  have hunclaimed : (g.renamed c.name noise).known.unclaimed.get? (c.name outV) =
      g.known.unclaimed.get? outV := IdMap.get?_renamed _ hname outV
  have hclaimed : (g.renamed c.name noise).known.claimed.get? (c.name outV) =
      g.known.claimed.get? outV := IdMap.get?_renamed _ hname outV
  unfold next
  rw [hset, hunclaimed, hclaimed, hout]
  cases g.known.resultSets.get? inV with
  | none => exact .pure rfl
  | some resultSet =>
    cases g.known.unclaimed.get? outV with
    | some range =>
      refine .pure (renamed_learn ?_)
      simp only [Known.renamed, IdMap.insert_renamed _ hname]
    | none =>
      cases g.known.claimed.get? outV with
      | some range =>
        refine (setResultSet_carried h s _ _).bind fun _ _ _ => .pure (renamed_learn ?_)
        simp only [Known.renamed, IdMap.insert_renamed _ hname]
      | none =>
        refine .pure ?_
        split
        next => exact renamed_ignored g
        next => rfl

theorem bucket_carried (g : Ingestion) (kind : BucketKind) (outV inV : Int)
    (ho : ∀ row, g.known.resultSetOf? outV = some row → c.Owns s row) :
    Carried c.store a b id (renamed c.name noise) s (g.bucket kind outV inV)
      ((g.renamed c.name noise).bucket kind (c.name outV) (c.name inV)) := by
  have hname := c.injective
  have hlearn : ((g.renamed c.name noise).learn fun k => k.learnKind (c.name inV) kind) =
      (g.learn fun k => k.learnKind inV kind).renamed c.name noise :=
    renamed_learn (g.known.learnKind_renamed hname inV kind)
  have hsame : (g.learn fun k => k.learnKind inV kind).known.resultSetOf? outV =
      g.known.resultSetOf? outV := Stage.resultSetOf?_learnKind g.known inV outV kind
  have hset : ((g.learn fun k => k.learnKind inV kind).renamed c.name noise).known.resultSetOf?
      (c.name outV) = g.known.resultSetOf? outV :=
    (Known.resultSetOf?_renamed _ hname outV).trans hsame
  unfold bucket
  dsimp only
  rw [hlearn, hset, hsame]
  cases hr : g.known.resultSetOf? outV with
  | none => exact .pure rfl
  | some row => exact (setBucket_carried h s (ho row hr) kind inV).bind fun _ _ _ => .pure rfl

theorem item_carried (bucket : Int) (property : Option String) {g : Ingestion} (hr : g.run = c.run)
    (target : Int) :
    Carried c.store a b id (renamed c.name noise) s (item bucket property g target)
      (item (c.name bucket) property (g.renamed c.name noise) (c.name target)) := by
  have hname := c.injective
  have hget : (g.renamed c.name noise).known.claimed.get? (c.name target) =
      g.known.claimed.get? target := IdMap.get?_renamed _ hname target
  have hkind : (g.renamed c.name noise).toDefinitions (c.name bucket) property =
      g.toDefinitions bucket property := by
    have hk : (g.renamed c.name noise).known.kindOf? (c.name bucket) = g.known.kindOf? bucket :=
      Known.kindOf?_renamed _ hname bucket
    unfold toDefinitions
    rw [hk]
  unfold item
  rw [hget, hkind]
  cases g.known.claimed.get? target with
  | none => exact .pure rfl
  | some range =>
    dsimp only
    split
    next =>
      exact (addDefinition_carried h s hr).bind fun _ _ _ => .pure rfl
    next =>
      exact (addReference_carried h s hr _).bind fun _ _ _ => .pure rfl

theorem edge_carried {g : Ingestion} (hr : g.run = c.run) (e : Edge)
    (ho : ∀ outV row, g.known.resultSetOf? outV = some row → c.Owns s row) :
    Carried c.store a b id (renamed c.name noise) s (g.edge e)
      ((g.renamed c.name noise).edge (e.renamed c.name)) := by
  have hname := c.injective
  have hdocument : ∀ v, (g.renamed c.name noise).known.documents.get? (c.name v) =
      g.known.documents.get? v := IdMap.get?_renamed _ hname
  have hset : ∀ v, (g.renamed c.name noise).known.resultSetOf? (c.name v) =
      g.known.resultSetOf? v := Known.resultSetOf?_renamed _ hname
  have hmoniker : ∀ v, (g.renamed c.name noise).known.monikers.get? (c.name v) =
      g.known.monikers.get? v := IdMap.get?_renamed _ hname
  have hpackage : ∀ v, (g.renamed c.name noise).known.packages.get? (c.name v) =
      g.known.packages.get? v := IdMap.get?_renamed _ hname
  have hhover : ∀ v, (g.renamed c.name noise).known.hovers.get? (c.name v) =
      g.known.hovers.get? v := IdMap.get?_renamed _ hname
  cases e with
  | contains outV inVs =>
    simp only [edge, Edge.renamed, hdocument]
    cases g.known.documents.get? outV with
    | none => exact .pure rfl
    | some document =>
      exact .foldlM (motive := fun _ => True) (fun g id t _ => claim_carried h document g id)
        (fun _ _ _ _ _ _ _ => trivial) inVs trivial
  | next outV inV => exact next_carried h g outV inV
  | moniker outV inV =>
    simp only [edge, Edge.renamed, hset, hmoniker]
    exact joined_carried (setMoniker_carried h s)
  | packageInformation outV inV =>
    simp only [edge, Edge.renamed, hmoniker, hpackage]
    exact joined_carried (setPackage_carried h s)
  | bucket kind outV inV => exact bucket_carried h g kind outV inV (ho outV)
  | hover outV inV =>
    simp only [edge, Edge.renamed, hset, hhover]
    exact joined_carried (setHover_carried h s)
  | item outV inVs inV property =>
    simp only [edge, Edge.renamed, Edge.itemTargets_map]
    -- Putting a range into a bucket does not change the run, which the next one needs again.
    refine .foldlM (motive := fun g => g.run = c.run)
      (fun g target t hr => item_carried h outV property hr target)
      (fun g target t g' u hr hi => ?_) _ hr
    have hrun := (Stage.items_known outV property [target] ⟨g, t⟩).1
    rw [List.foldl_cons, List.foldl_nil, item_stage hi] at hrun
    exact hrun.trans hr
  | other => exact .pure (renamed_ignored g)

theorem element_carried {g : Ingestion} (hr : g.run = c.run) (e : Element)
    (ho : ∀ outV row, g.known.resultSetOf? outV = some row → c.Owns s row) :
    Carried c.store a b id (renamed c.name noise) s (g.element e)
      ((g.renamed c.name noise).element (e.renamed c.name)) := by
  cases e with
  | vertex v =>
    have hcounted :=
      renamed_counting c.name noise g (fun r => { r with vertices := r.vertices + 1 })
        (by simp only [Report.withNoise, Nat.add_right_comm])
    simp only [element, Element.renamed, hcounted]
    exact vertex_carried h _ v
  | edge e =>
    have hcounted := renamed_counting c.name noise g (fun r => { r with edges := r.edges + 1 })
      (by simp only [Report.withNoise, Nat.add_right_comm])
    simp only [element, Element.renamed, hcounted]
    refine edge_carried h ?_ e ?_
    · exact hr
    · exact ho

theorem line_carried {g : Ingestion} (hr : g.run = c.run)
    (ho : ∀ outV row, g.known.resultSetOf? outV = some row → c.Owns s row)
    {bytes bytes' : List UInt8} (hb : RenamedLine c.name bytes bytes') {shift : Nat → Nat}
    (number : Nat) :
    Carried c.store a b (.renumbered shift) (renamed c.name noise) s (g.line number bytes)
      ((g.renamed c.name noise).line (shift number) bytes') := by
  have hcounted := renamed_counting c.name noise g (fun r => { r with lines := r.lines + 1 })
    (by simp only [Report.withNoise, Nat.add_right_comm])
  have hrecord := hb.record
  have hblank := hb.blank
  unfold line
  simp only [hcounted]
  cases ht : trimLine bytes with
  | nil =>
    simp only [hblank.mpr ht]
    exact .pure rfl
  | cons first rest =>
    cases ht' : trimLine bytes' with
    | nil =>
      rw [hblank.mp ht'] at ht
      cases ht
    | cons first' rest' =>
      rw [ht, ht'] at hrecord
      simp only [hrecord]
      cases Element.ofLine? (first :: rest) with
      | none =>
        refine .pure ?_
        simp only [renamed, Report.withNoise, Nat.add_right_comm]
      | some element =>
        simp only [Option.map_some, Element.describe_renamed]
        refine Carried.mapError (element_carried h ?_ element ?_) fun _ => rfl
        · exact hr
        · exact ho

end Records

theorem lines_noise {block : List (List UInt8)}
    (h : ∀ bytes ∈ block, (Noise.ofLine? bytes).isSome = true) (g : Ingestion) (number : Nat)
    (rest : List (List UInt8)) (access : Access) (s : Store) :
    g.lines number (block ++ rest) access s =
      { g with report := g.report.withNoise (block.filterMap Noise.ofLine?) }.lines
        (number + block.length) rest access s := by
  induction block generalizing g number with
  | nil => rfl
  | cons bytes block ih =>
    obtain ⟨noise, hn⟩ := Option.isSome_iff_exists.mp (h bytes List.mem_cons_self)
    have hrest := ih fun other ho => h other (List.mem_cons_of_mem _ ho)
    have hfirst : g.lines number (bytes :: (block ++ rest)) access s =
        { g with report := g.report.withNoise [noise] }.lines (number + 1) (block ++ rest)
          access s := by
      change Action.andThen (g.line number bytes) _ access s = _
      simp only [Action.andThen, line_noise hn]
    rw [List.cons_append, hfirst, hrest, List.filterMap_cons, hn, List.length_cons]
    have hadd := Report.withNoise_append g.report [noise] (block.filterMap Noise.ofLine?)
    rw [← hadd, Nat.add_assoc, Nat.add_comm 1]
    rfl

end Ingestion

/-- Lines with others put between them: a block before each line, and one at the end. -/
def weave (extra : Nat → List (List UInt8)) : List (List UInt8) → List (List UInt8)
  | [] => extra 0
  | line :: rest => extra 0 ++ line :: weave (fun k => extra (k + 1)) rest

/-- The lines that are put before the line with the given number. -/
def insertedBefore (extra : Nat → List (List UInt8)) (number : Nat) : List (List UInt8) :=
  (List.range number).flatMap extra

theorem insertedBefore_succ (extra : Nat → List (List UInt8)) (number : Nat) :
    insertedBefore extra (number + 1) =
      extra 0 ++ insertedBefore (fun k => extra (k + 1)) number := by
  simp [insertedBefore, List.range_succ_eq_map, List.flatMap_map]

theorem insertedBefore_one (extra : Nat → List (List UInt8)) :
    insertedBefore extra 1 = extra 0 := by
  simp [insertedBefore]

namespace Ingestion

variable {c : StoreRenaming} {a b : Access}

theorem renamed_lines_noise {block : List (List UInt8)}
    (h : ∀ bytes ∈ block, (Noise.ofLine? bytes).isSome = true) (name : Int → Int)
    (noise : List Noise) (g : Ingestion) (number : Nat) (rest : List (List UInt8))
    (access : Access) (s : Store) :
    (g.renamed name noise).lines number (block ++ rest) access s =
      (g.renamed name (noise ++ block.filterMap Noise.ofLine?)).lines (number + block.length) rest
        access s := by
  have hadd := Report.withNoise_append g.report noise (block.filterMap Noise.ofLine?)
  rw [lines_noise h]
  simp only [renamed, hadd]

theorem lines_carried (h : a.Alike c.store b) {motive : Stage → Prop} (hm : c.Keeps motive)
    {lines lines' : List (List UInt8)} (hl : List.Forall₂ (RenamedLine c.name) lines lines')
    {extra : Nat → List (List UInt8)}
    (hnoise : ∀ k ≤ lines.length, ∀ bytes ∈ extra k, (Noise.ofLine? bytes).isSome = true)
    {shift : Nat → Nat} {number number' : Nat}
    (hshift : ∀ k ≤ lines.length,
      shift (number + k) = number' + k + (insertedBefore extra (k + 1)).length)
    (noise : List Noise) {g : Ingestion} {s : Store} (hg : motive ⟨g, s⟩) :
    Carried c.store a b (.renumbered shift)
      (renamed c.name
        (noise ++ (insertedBefore extra (lines.length + 1)).filterMap Noise.ofLine?)) s
      (g.lines number lines) ((g.renamed c.name noise).lines number' (weave extra lines')) := by
  -- The block before a line is met first and adds to the noise; the numbers of all lines behind it
  -- go up by its length.
  induction hl generalizing extra number number' noise g s with
  | nil =>
    have hblock := renamed_lines_noise (hnoise 0 (Nat.le_refl _)) c.name noise g number' [] b
      (c.store s)
    rw [List.append_nil] at hblock
    rw [List.length_nil, insertedBefore_one]
    exact hblock
  | @cons bytes bytes' rest rest' hb hl ih =>
    have hblock := renamed_lines_noise (hnoise 0 (Nat.zero_le _)) c.name noise g number'
      (bytes' :: weave (fun k => extra (k + 1)) rest') b (c.store s)
    have hfirst : number' + (extra 0).length = shift number := by
      have h0 := hshift 0 (Nat.zero_le _)
      rw [insertedBefore_one, Nat.add_zero, Nat.add_zero] at h0
      exact h0.symm
    have hnext : ∀ k ≤ rest.length, shift (number + 1 + k) =
        shift number + 1 + k + (insertedBefore (fun k => extra (k + 1)) (k + 1)).length := by
      intro k hk
      have hsucc := hshift (k + 1) (Nat.succ_le_succ hk)
      rw [insertedBefore_succ, List.length_append] at hsucc
      rw [← hfirst, Nat.add_right_comm number 1 k, Nat.add_assoc number k 1, hsucc]
      omega
    have hall : noise ++ (insertedBefore extra (rest.length + 1 + 1)).filterMap Noise.ofLine? =
        noise ++ (extra 0).filterMap Noise.ofLine? ++
          (insertedBefore (fun k => extra (k + 1)) (rest.length + 1)).filterMap Noise.ofLine? := by
      rw [insertedBefore_succ, List.filterMap_append, List.append_assoc]
    rw [hfirst] at hblock
    have hcons : Carried c.store a b (.renumbered shift)
        (renamed c.name (noise ++ (extra 0).filterMap Noise.ofLine? ++
          (insertedBefore (fun k => extra (k + 1)) (rest.length + 1)).filterMap Noise.ofLine?)) s
        (g.lines number (bytes :: rest))
        ((g.renamed c.name (noise ++ (extra 0).filterMap Noise.ofLine?)).lines (shift number)
          (bytes' :: weave (fun k => extra (k + 1)) rest')) := by
      refine Carried.bind (line_carried h (hm.run hg) (fun _ _ => hm.owns hg) hb number)
        fun g' t hline => ?_
      have hg' : motive ⟨g', t⟩ := line_stage hline ▸ hm.kept.line bytes hg
      exact ih (fun k hk => hnoise (k + 1) (Nat.succ_le_succ hk)) hnext _ hg'
    rw [List.length_cons, hall]
    exact hblock.trans hcons

end Ingestion

theorem length_weave (extra : Nat → List (List UInt8)) (lines : List (List UInt8)) :
    (weave extra lines).length =
      lines.length + (insertedBefore extra (lines.length + 1)).length := by
  induction lines generalizing extra with
  | nil =>
    rw [List.length_nil, insertedBefore_one]
    exact (Nat.zero_add _).symm
  | cons line rest ih =>
    have hblocks := congrArg List.length (insertedBefore_succ extra (rest.length + 1))
    rw [List.length_append] at hblocks
    rw [weave, List.length_append, List.length_cons, ih, List.length_cons, hblocks]
    omega

/-- The number of a line when others are put in. -/
def shifted (extra : Nat → List (List UInt8)) (number : Nat) : Nat :=
  number + (insertedBefore extra number).length

/-- The second stream tells the same as the first: its lines say the same with other ids, and the
lines put between them say nothing. -/
structure RenamedStream (name : Int → Int) (extra : Nat → List (List UInt8))
    (stream stream' : ByteStream) : Prop where
  lines : ∃ own, List.Forall₂ (RenamedLine name) stream.lines own ∧ stream'.lines = weave extra own
  noise : ∀ k ≤ stream.lines.length, ∀ bytes ∈ extra k, (Noise.ofLine? bytes).isSome = true
  failure : stream'.failure = stream.failure

/-- What is on the lines that are put between those of a stream. -/
def ByteStream.noise (stream : ByteStream) (extra : Nat → List (List UInt8)) : List Noise :=
  (insertedBefore extra (stream.lines.length + 1)).filterMap Noise.ofLine?

section Dumps

variable {c : StoreRenaming} {a b : Access} (h : a.Alike c.store b) {motive : Stage → Prop}
  (hm : c.Keeps motive) {extra : Nat → List (List UInt8)} {stream stream' : ByteStream}
  (ht : RenamedStream c.name extra stream stream') {s : Store}
include h hm ht

theorem stream_carried {g : Ingestion} (hg : motive ⟨g, s⟩) :
    Carried c.store a b (.renumbered (shifted extra))
      (Ingestion.renamed c.name (stream.noise extra)) s (g.stream stream)
      ((g.renamed c.name []).stream stream') := by
  obtain ⟨own, hown, hlines⟩ := ht.lines
  have hshift : ∀ k ≤ stream.lines.length,
      shifted extra (1 + k) = 1 + k + (insertedBefore extra (k + 1)).length := by
    intro k _
    rw [shifted, Nat.add_comm 1 k]
  have hlast : shifted extra (stream.lines.length + 1) = stream'.lines.length + 1 := by
    rw [shifted, hlines, length_weave, ← hown.length_eq]
    omega
  have htake := Ingestion.lines_carried h hm hown ht.noise hshift [] hg
  rw [← hlines] at htake
  refine Carried.bind htake fun g' t _ => ?_
  rw [ht.failure]
  cases stream.failure with
  | none => exact .pure rfl
  | some message => exact .fail (by rw [IngestError.renumbered, hlast])

theorem ingestGraph_carried {about : RunMeta} (hs : c.store s = s)
    (hrun : c.store (s.withRun about (about.createdAt.getD a.clock)) =
      s.withRun about (about.createdAt.getD b.clock))
    (hstart : motive ⟨.start (s.runs.last + 1), s.withRun about (about.createdAt.getD a.clock)⟩) :
    Carried c.store a b (.renumbered (shifted extra)) (·.withNoise (stream.noise extra)) s
      (ingestGraph about stream) (ingestGraph about stream') := by
  refine .transaction h ?_ fun _ => rfl
  have hadd : Carried c.store { a with inTransaction := true } { b with inTransaction := true }
      (IngestError.renumbered (shifted extra)) id s
      ((addRun about).mapError (IngestError.storage 0 "index run"))
      ((addRun about).mapError (IngestError.storage 0 "index run")) :=
    (addRun_carried h.within s hs hrun).mapError fun _ => rfl
  refine hadd.bind fun run t hr => ?_
  obtain ⟨-, rfl, rfl⟩ := addRun_ok_iff.mp (Action.mapError_ok_iff.mp hr)
  refine (stream_carried h.within hm ht hstart).bind fun g u _ => .pure ?_
  exact Ingestion.renamed_closingReport c.name (stream.noise extra) g

theorem ingest_carried {about : RunMeta} (settings : IngestSettings) (hs : c.store s = s)
    (hrun : c.store (s.withRun about (about.createdAt.getD a.clock)) =
      s.withRun about (about.createdAt.getD b.clock))
    (hstart : motive ⟨.start (s.runs.last + 1), s.withRun about (about.createdAt.getD a.clock)⟩) :
    Carried c.store a b (.renumbered (shifted extra)) (·.withNoise (stream.noise extra)) s
      (ingest settings about stream) (ingest settings about stream') := by
  refine (ingestGraph_carried h hm ht hs hrun hstart).bind fun report t _ => ?_
  split
  next =>
    have hderive : Carried c.store a b (IngestError.renumbered (shifted extra)) id t
        (derivation false report.run).attempt (derivation false report.run).attempt :=
      (derivation_carried h t report.run).attempt
    refine hderive.bind fun result u _ => ?_
    cases result with
    | ok counts => exact .pure rfl
    | error e => exact .pure rfl
  next => exact .pure rfl

end Dumps

end SymbolAtlas
