import SymbolAtlas.Proofs.Declared
import SymbolAtlas.Proofs.Views

namespace SymbolAtlas

namespace Target

/-- The kind of the bucket decides, and what the edge says does only if the bucket is neither one of
definitions nor one of references. -/
def Defines (target : Target) : Prop :=
  target.kind = some .definitions ∨
    target.kind ≠ some .references ∧ target.property = some "definitions"

def Flagged (target : Target) : Prop :=
  target.kind = some .references ∧ target.property = some "definitions"

instance : DecidablePred Defines := fun _ => inferInstanceAs (Decidable (_ ∨ _))

instance : DecidablePred Flagged := fun _ => inferInstanceAs (Decidable (_ ∧ _))

def item? (run : Int) (target : Target) : Option Item :=
  target.range.map fun range => ⟨run, target.bucket, range.document, range.row⟩

def definition? (run : Int) (target : Target) : Option Item :=
  if target.Defines then target.item? run else none

def reference? (run : Int) (target : Target) : Option ReferenceItem :=
  if target.Defines then none
  else (target.item? run).map fun item => { item with isDefinition := decide target.Flagged }

def location? (t : Store) (target : Target) : Option Location :=
  target.range.bind fun range => t.location? range.document range.row

variable {target : Target}

theorem flag_of_not_defines (hd : ¬ target.Defines) :
    Edge.isDefinitions target.property = decide target.Flagged := by
  unfold Edge.isDefinitions Flagged
  rw [beq_eq_decide]
  by_cases hp : target.property = some "definitions"
  · by_cases hk : target.kind = some .references
    · simp [hp, hk]
    · exact absurd (.inr ⟨hk, hp⟩) hd
  · simp [hp]

/-- A target has one row, in one of the tables, or it dangles. -/
theorem rows_or_dangles (run : Int) (target : Target) :
    (target.definition? run).toList.length + (target.reference? run).toList.length +
      (if target.range.isNone then 1 else 0) = 1 := by
  unfold definition? reference? item?
  by_cases hd : target.Defines
  · cases hr : target.range <;> simp [hd]
  · cases hr : target.range <;> simp [hd]

theorem rows_and_dangling (run : Int) (targets : List Target) :
    (targets.filterMap (definition? run)).length + (targets.filterMap (reference? run)).length +
      targets.countP (fun target => target.range.isNone) = targets.length := by
  induction targets with
  | nil => rfl
  | cons target rest ih =>
    have hone := rows_or_dangles run target
    have hd : ((target :: rest).filterMap (definition? run)).length =
        (target.definition? run).toList.length + (rest.filterMap (definition? run)).length := by
      rw [List.filterMap_cons]
      cases target.definition? run <;> simp [Nat.add_comm]
    have hr : ((target :: rest).filterMap (reference? run)).length =
        (target.reference? run).toList.length + (rest.filterMap (reference? run)).length := by
      rw [List.filterMap_cons]
      cases target.reference? run <;> simp [Nat.add_comm]
    rw [hd, hr, List.countP_cons, List.length_cons]
    omega

end Target

namespace Table

variable {α β : Type}

theorem filterMap_insertAll {t : Table α} {f : α → Option β} (hold : ∀ r ∈ t.rows, f r.2 = none)
    (rows : List α) : (t.insertAll rows).rows.filterMap (fun r => f r.2) = rows.filterMap f := by
  have hnone : (t.rows.map Prod.snd).filterMap f = [] := by
    rw [List.filterMap_eq_nil_iff]
    intro a ha
    obtain ⟨r, hr, rfl⟩ := List.mem_map.mp ha
    exact hold r hr
  have hall := congrArg (List.filterMap f) (rows_insertAll t rows)
  rw [List.filterMap_map, List.filterMap_append, hnone] at hall
  exact hall

theorem mem_insertAll (t : Table α) {rows : List α} {a : α} (h : a ∈ rows) :
    ∃ r ∈ (t.insertAll rows).rows, r.2 = a := by
  rw [← List.mem_map, rows_insertAll, List.mem_append]
  exact .inr h

end Table

/-- The items of a run are those of its targets, behind the items that were there. -/
structure Store.Routes (s : Store) (run : Int) (targets : List Target) (t : Store) : Prop where
  definitionItems : t.definitionItems =
    s.definitionItems.insertAll (targets.filterMap (Target.definition? run))
  referenceItems : t.referenceItems =
    s.referenceItems.insertAll (targets.filterMap (Target.reference? run))

namespace Stage

variable {base start : Store} {past : Past} {run : Int} {p : Stage}

theorem Recalls.toDefinitions (h : Recalls base past p) (bucket : Int) (property : Option String)
    (id : Int) :
    p.ingestion.toDefinitions bucket property =
      decide (past.target base bucket property id).Defines := by
  have hkind : p.ingestion.known.kindOf? bucket = past.kind? bucket := h.kinds bucket
  unfold Ingestion.toDefinitions Target.Defines Edge.isDefinitions Past.target
  rw [hkind, beq_eq_decide]
  cases past.kind? bucket with
  | none => simp
  | some kind => cases kind <;> simp

theorem Recalls.item? (h : Recalls base past p) (bucket : Int) (property : Option String)
    (id : Int) :
    (p.ingestion.known.claimed.get? id).map (fun range =>
        (⟨p.run, bucket, range.document, range.row⟩ : Item)) =
      (past.target base bucket property id).item? p.run := by
  have hstored : p.ingestion.known.claimed.get? id = past.stored? base id := h.stored id
  rw [hstored]
  rfl

theorem Recalls.itemsOf (h : Recalls base past p) (bucket : Int) (property : Option String)
    (ids : List Int) :
    p.ingestion.definitionsOf (.item bucket (some ids) none property) =
        (ids.map (past.target base bucket property)).filterMap (Target.definition? p.run) ∧
      p.ingestion.referencesOf (.item bucket (some ids) none property) =
        (ids.map (past.target base bucket property)).filterMap (Target.reference? p.run) := by
  have hroute := h.toDefinitions bucket property
  have hitems : p.ingestion.itemsOf bucket ids =
      ids.filterMap fun id => (past.target base bucket property id).item? p.run :=
    List.filterMap_congr fun id _ => h.item? bucket property id
  simp only [Ingestion.definitionsOf, Ingestion.referencesOf, Edge.itemTargets, hitems,
    List.filterMap_map, List.map_filterMap]
  -- All targets of one edge go the same way, whether they are stored or not.
  cases hd : p.ingestion.toDefinitions bucket property with
  | true =>
    have hdefines (id : Int) : (past.target base bucket property id).Defines := by
      have := hroute id
      rw [hd] at this
      exact of_decide_eq_true this.symm
    constructor
    · rw [if_pos rfl]
      refine List.filterMap_congr fun id _ => ?_
      exact (if_pos (hdefines id)).symm
    · rw [if_pos rfl]
      refine (List.filterMap_eq_nil_iff.mpr fun id _ => ?_).symm
      exact if_pos (hdefines id)
  | false =>
    have hdefines (id : Int) : ¬ (past.target base bucket property id).Defines := by
      have := hroute id
      rw [hd] at this
      exact of_decide_eq_false this.symm
    constructor
    · rw [if_neg Bool.false_ne_true]
      refine (List.filterMap_eq_nil_iff.mpr fun id _ => ?_).symm
      exact if_neg (hdefines id)
    · rw [if_neg Bool.false_ne_true]
      refine List.filterMap_congr fun id _ => ?_
      have hflag : Edge.isDefinitions property =
          decide (past.target base bucket property id).Flagged :=
        Target.flag_of_not_defines (hdefines id)
      rw [hflag]
      exact (if_neg (hdefines id)).symm

theorem Recalls.items_edge (h : Recalls base past p) {e : Edge} (he : e.isItem = false) :
    (p.edge e).store.definitionItems = p.store.definitionItems ∧
      (p.edge e).store.referenceItems = p.store.referenceItems := by
  cases e with
  | contains outV inVs =>
    simp only [Stage.edge]
    split
    next => exact ⟨rfl, rfl⟩
    next document _ =>
      obtain ⟨_, _, _, hfold, -⟩ := claims_taken document inVs h.waiting h.stored h.ranges
      rw [hfold]
      exact ⟨rfl, rfl⟩
  | item outV inVs inV property => cases he
  | other => exact ⟨rfl, rfl⟩
  | _ =>
    simp only [Stage.edge, Stage.next, Stage.bucket]
    repeat' split
    all_goals exact ⟨rfl, rfl⟩

theorem targets_of_not_item {e : Edge} (he : e.isItem = false) :
    Past.targets base (.edge e :: past) = past.targets base := by
  cases e with
  | item outV inVs inV property => cases he
  | _ => rfl

theorem routes_edge (e : Edge) (ha : Abides base start run past p)
    (h : base.Routes run (past.targets base) p.store) :
    base.Routes run (Past.targets base (.edge e :: past)) (p.edge e).store := by
  cases he : e.isItem with
  | false =>
    obtain ⟨hd, hr⟩ := ha.recalls.items_edge he
    have ht : Past.targets base (.edge e :: past) = past.targets base := targets_of_not_item he
    constructor
    · rw [hd, ht]
      exact h.definitionItems
    · rw [hr, ht]
      exact h.referenceItems
  | true =>
    cases e with
    | item outV inVs inV property =>
      have hrun : p.run = run := ha.awaits.run
      obtain ⟨hd, hr⟩ := ha.recalls.itemsOf outV property (Edge.itemTargets inVs inV)
      have hstore := items_store outV property (Edge.itemTargets inVs inV) p
      rw [hrun] at hd hr
      simp only [Stage.edge]
      constructor
      · rw [hstore]
        change p.store.definitionItems.insertAll (p.ingestion.definitionsOf _) =
          base.definitionItems.insertAll ((past.targets base ++ _).filterMap _)
        rw [hd, h.definitionItems, List.filterMap_append, Table.insertAll_append]
      · rw [hstore]
        change p.store.referenceItems.insertAll (p.ingestion.referencesOf _) =
          base.referenceItems.insertAll ((past.targets base ++ _).filterMap _)
        rw [hr, h.referenceItems, List.filterMap_append, Table.insertAll_append]
    | _ => cases he

end Stage

namespace Store

/-- The rows of a run in the two tables of items. -/
def definitionRows (s : Store) (run : Int) : List Item :=
  s.definitionItems.rows.filterMap fun r => if r.2.run = run then some r.2 else none

def referenceRows (s : Store) (run : Int) : List ReferenceItem :=
  s.referenceItems.rows.filterMap fun r => if r.2.run = run then some r.2 else none

namespace Routes

variable {s t : Store} {run : Int} {targets : List Target} {β : Type}

theorem filterMap_definitions (h : s.Routes run targets t) (hs : s.Scoped)
    (hrun : run = s.runs.last + 1) {f : Item → Option β}
    (hf : ∀ item, item.run ≠ run → f item = none) :
    t.definitionItems.rows.filterMap (fun r => f r.2) =
      targets.filterMap fun target => (target.definition? run).bind f := by
  have hold : ∀ r ∈ s.definitionItems.rows, f r.2 = none := by
    intro r hr
    have hne := hs.ordered.runs.ne_next ((hs.definitionItems r hr).live hs)
    rw [← hrun] at hne
    exact hf r.2 hne
  rw [h.definitionItems, Table.filterMap_insertAll hold, List.filterMap_filterMap]

theorem filterMap_references (h : s.Routes run targets t) (hs : s.Scoped)
    (hrun : run = s.runs.last + 1) {f : ReferenceItem → Option β}
    (hf : ∀ item : ReferenceItem, item.run ≠ run → f item = none) :
    t.referenceItems.rows.filterMap (fun r => f r.2) =
      targets.filterMap fun target => (target.reference? run).bind f := by
  have hold : ∀ r ∈ s.referenceItems.rows, f r.2 = none := by
    intro r hr
    have hne := hs.ordered.runs.ne_next ((hs.referenceItems r hr).live hs)
    rw [← hrun] at hne
    exact hf r.2 hne
  rw [h.referenceItems, Table.filterMap_insertAll hold, List.filterMap_filterMap]

theorem definitionRows (h : s.Routes run targets t) (hs : s.Scoped)
    (hrun : run = s.runs.last + 1) :
    t.definitionRows run = targets.filterMap (Target.definition? run) := by
  have hread := h.filterMap_definitions hs hrun
    (f := fun item => if item.run = run then some item else none) fun item hne => if_neg hne
  refine hread.trans (List.filterMap_congr fun target _ => ?_)
  unfold Target.definition? Target.item?
  by_cases hd : target.Defines
  · cases target.range <;> simp [hd]
  · simp [hd]

theorem referenceRows (h : s.Routes run targets t) (hs : s.Scoped)
    (hrun : run = s.runs.last + 1) :
    t.referenceRows run = targets.filterMap (Target.reference? run) := by
  have hread := h.filterMap_references hs hrun
    (f := fun item => if item.run = run then some item else none) fun item hne => if_neg hne
  refine hread.trans (List.filterMap_congr fun target _ => ?_)
  unfold Target.reference? Target.item?
  by_cases hd : target.Defines
  · simp [hd]
  · cases target.range <;> simp [hd]

theorem definitionsIn (h : s.Routes run targets t) (hs : s.Scoped) (hrun : run = s.runs.last + 1)
    (bucket : Int) :
    t.definitionsIn run bucket = (targets.filter fun target =>
      target.bucket = bucket ∧ target.Defines).filterMap (Target.location? t) := by
  have hread := h.filterMap_definitions hs hrun
    (f := fun item => if item.run = run ∧ item.bucket = bucket then
      t.location? item.document item.range else none) fun item hne => if_neg fun hi => hne hi.1
  rw [List.filterMap_filter]
  refine hread.trans (List.filterMap_congr fun target _ => ?_)
  unfold Target.definition? Target.item? Target.location?
  by_cases hd : target.Defines
  · cases target.range <;> simp [hd]
  · simp [hd]

theorem referencesIn (h : s.Routes run targets t) (hs : s.Scoped) (hrun : run = s.runs.last + 1)
    (bucket : Int) (includeDefinitions : Bool) :
    t.referencesIn run bucket includeDefinitions = (targets.filter fun target =>
      target.bucket = bucket ∧ ¬ target.Defines ∧
        (includeDefinitions ∨ ¬ target.Flagged)).filterMap (Target.location? t) := by
  have hread := h.filterMap_references hs hrun
    (f := fun item => if item.run = run ∧ item.bucket = bucket ∧
      (includeDefinitions ∨ !item.isDefinition) then t.location? item.document item.range
      else none) fun item hne => if_neg fun hi => hne hi.1
  rw [List.filterMap_filter]
  refine hread.trans (List.filterMap_congr fun target _ => ?_)
  unfold Target.reference? Target.item? Target.location?
  by_cases hd : target.Defines
  · simp [hd]
  · cases target.range <;> simp [hd]

theorem location?_isSome (h : s.Routes run targets t) (ht : t.Scoped) {target : Target}
    (hm : target ∈ targets) : (target.location? t).isSome = target.range.isSome := by
  cases hr : target.range with
  | none => simp [Target.location?, hr]
  | some range =>
    have hitem : target.item? run = some ⟨run, target.bucket, range.document, range.row⟩ := by
      simp [Target.item?, hr]
    -- The range lies in its document because the item does, in whichever table it is.
    have hin : t.InRun run range.document range.row := by
      by_cases hd : target.Defines
      · have hnew : target.definition? run = some
            ⟨run, target.bucket, range.document, range.row⟩ := by
          simp [Target.definition?, hd, hitem]
        obtain ⟨r, hrow, he⟩ :=
          Table.mem_insertAll s.definitionItems (List.mem_filterMap.mpr ⟨target, hm, hnew⟩)
        rw [← h.definitionItems] at hrow
        have hscoped := ht.definitionItems r hrow
        rwa [he] at hscoped
      · have hnew : target.reference? run = some
            ⟨⟨run, target.bucket, range.document, range.row⟩, decide target.Flagged⟩ := by
          simp [Target.reference?, hd, hitem]
        obtain ⟨r, hrow, he⟩ :=
          Table.mem_insertAll s.referenceItems (List.mem_filterMap.mpr ⟨target, hm, hnew⟩)
        rw [← h.referenceItems] at hrow
        have hscoped := ht.referenceItems r hrow
        rwa [he] at hscoped
    unfold Target.location?
    rw [hr]
    exact hin.location

end Routes

end Store

section Dumps

variable {access : Access} {s t : Store} {settings : IngestSettings} {about : RunMeta}
  {stream : ByteStream} {report : Report}

theorem routes_stageAfter (h : s.Scoped) (about : RunMeta) (access : Access)
    (stream : ByteStream) :
    s.Routes (s.runs.last + 1) (Past.targets s stream.records.reverse)
      (stageAfter about access s stream.lines).store :=
  stageAfter_keeps
    (motive := fun past p => s.Routes (s.runs.last + 1) (past.targets s) p.store) h about access
    stream ⟨rfl, rfl⟩ (fun _ hr => hr) (fun v hr => by cases v <;> exact { hr with })
    fun e ha hr => Stage.routes_edge e ha hr

/-- No target of an item edge is lost, and none counts twice: it has one row in one of the tables of
items, or it dangles.  The kind that was learned for the bucket until then and the edge say in which
table, and buckets are read in the order of the dump. -/
theorem items_routed (h : Reachable s)
    (hi : ingest settings about stream access s = (.ok report, t)) :
    let past : Past := stream.records.reverse
    let targets := past.targets s
    (t.definitionRows report.run = targets.filterMap (Target.definition? report.run) ∧
      t.referenceRows report.run = targets.filterMap (Target.reference? report.run)) ∧
    (report.danglingReferences =
        past.danglingTotal s + targets.countP (fun target => target.range.isNone) ∧
      (t.definitionRows report.run).length + (t.referenceRows report.run).length +
        targets.countP (fun target => target.range.isNone) = targets.length) ∧
    (∀ target ∈ targets, (target.location? t).isSome = target.range.isSome) ∧
    ∀ bucket,
      t.contentsOf report.run bucket =
        t.definitionsIn report.run bucket ++ t.referencesIn report.run bucket true ∧
      t.definitionsIn report.run bucket = (targets.filter fun target =>
        target.bucket = bucket ∧ target.Defines).filterMap (Target.location? t) ∧
      t.referencesIn report.run bucket true = (targets.filter fun target =>
        target.bucket = bucket ∧ ¬ target.Defines).filterMap (Target.location? t) ∧
      t.referencesIn report.run bucket false = (targets.filter fun target =>
        target.bucket = bucket ∧ ¬ target.Defines ∧ ¬ target.Flagged).filterMap
          (Target.location? t) ∧
      (t.referencesIn report.run bucket false).Sublist (t.referencesIn report.run bucket true) := by
  intro past targets
  have hs := h.scoped
  have ha := abides_stageAfter hs about access stream
  have hroutes := routes_stageAfter hs about access stream
  obtain ⟨hrun, hdangling, ht⟩ := ingest_ok_stage hi
  have hreach : Reachable (ingest settings about stream access s).2 :=
    .after (.ingest settings about stream) access h
  rw [hi] at hreach
  have hr : s.Routes report.run targets t := by
    rw [ht, hrun]
    exact { hroutes with }
  have hdefinitions := hr.definitionRows hs hrun
  have hreferences := hr.referenceRows hs hrun
  have hread (bucket : Int) (includeDefinitions : Bool) :=
    hr.referencesIn hs hrun bucket includeDefinitions
  refine ⟨⟨hdefinitions, hreferences⟩, ⟨?_, ?_⟩,
    fun target hm => hr.location?_isSome hreach.scoped hm,
    fun bucket => ⟨rfl, hr.definitionsIn hs hrun bucket, ?_, ?_, ?_⟩⟩
  · rw [hdangling]
    exact ha.recalls.dangling
  · rw [hdefinitions, hreferences]
    exact Target.rows_and_dangling _ targets
  · rw [hread]
    simp
  · rw [hread]
    simp
  · rw [hread, hread]
    refine List.Sublist.filterMap _ (List.monotone_filter_right _ fun target => ?_)
    simp +contextual

end Dumps

/-- A bucket that gets items before its kind is learned, after that, and after a record that names
another kind; among the targets are one that comes twice and one that is not stored. -/
def mixedBucketLines : List (List UInt8) :=
  ["[\"vertex\",\"document\",1,\"a\",null]", "[\"vertex\",\"range\",2,[0,4],[0,7]]",
    "[\"vertex\",\"range\",3,[1,0],[1,3]]", "[\"vertex\",\"resultSet\",4]",
    "[\"edge\",\"contains\",1,[2,3]]", "[\"edge\",\"item\",10,[2,9,2],null,\"definitions\"]",
    "[\"edge\",\"item\",10,[3],null,null]", "[\"edge\",\"textDocument/references\",4,10]",
    "[\"edge\",\"item\",10,null,2,\"definitions\"]", "[\"vertex\",\"definitionResult\",10]",
    "[\"edge\",\"item\",10,[3],2,\"definitions\"]"].map fun line => line.toUTF8.toList

def mixedBucketReport : Report where
  run := 1
  lines := 11
  vertices := 5
  edges := 6
  danglingReferences := 1
  derivation := some ⟨0, 0, 0, 0⟩

def mixedBucketStore : Store where
  runs := ⟨1, [(1, { repo := none, commit := none, createdAt := 0 })]⟩
  documents := ⟨1, [(1, ⟨1, "a", none⟩)]⟩
  resultSets := ⟨1, [(1, { run := 1, references := some 10 })]⟩
  ranges := ⟨2, [(1, ⟨1, .ofCoords 0 4 0 7, none⟩), (2, ⟨1, .ofCoords 1 0 1 3, none⟩)]⟩
  definitionItems := ⟨2, [(1, ⟨1, 10, 1, 1⟩), (2, ⟨1, 10, 1, 1⟩)]⟩
  referenceItems := ⟨3, [(1, ⟨⟨1, 10, 1, 2⟩, false⟩), (2, ⟨⟨1, 10, 1, 1⟩, true⟩),
    (3, ⟨⟨1, 10, 1, 2⟩, true⟩)]⟩

/-- The first edge leads to definitions and the later ones do not; the flag is set from the moment
on that the bucket is one of references. -/
theorem mixed_bucket_routed :
    let past : Past := (ByteStream.ofLines mixedBucketLines).records.reverse
    (past.targets .empty).filterMap (Target.definition? 1) = [⟨1, 10, 1, 1⟩, ⟨1, 10, 1, 1⟩] ∧
      (past.targets .empty).filterMap (Target.reference? 1) =
        [⟨⟨1, 10, 1, 2⟩, false⟩, ⟨⟨1, 10, 1, 1⟩, true⟩, ⟨⟨1, 10, 1, 2⟩, true⟩] ∧
      2 + 3 + (past.targets .empty).countP (fun target => target.range.isNone) =
        (past.targets .empty).length := by
  have hi : ingest {} {} (.ofLines mixedBucketLines) {} .empty =
      (.ok mixedBucketReport, mixedBucketStore) := by decide +kernel
  obtain ⟨⟨hdefinitions, hreferences⟩, ⟨-, htotal⟩, -⟩ := items_routed .empty hi
  exact ⟨hdefinitions.symm, hreferences.symm, htotal⟩

end SymbolAtlas
