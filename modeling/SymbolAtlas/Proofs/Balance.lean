import SymbolAtlas.Proofs.Placement
import SymbolAtlas.Proofs.Retired
import SymbolAtlas.Proofs.Routing

namespace SymbolAtlas

namespace Element

def isVertex : Element → Bool
  | .vertex _ => true
  | .edge _ => false

def isEdge : Element → Bool
  | .vertex _ => false
  | .edge _ => true

/-- A label that the store has no use for. -/
def isOther : Element → Bool
  | .vertex .other => true
  | .edge .other => true
  | _ => false

/-- What an item edge puts into its bucket. -/
def targets : Element → List Int
  | .edge (.item _ inVs inV _) => Edge.itemTargets inVs inV
  | _ => []

end Element

def isBlank (bytes : List UInt8) : Bool := (trimLine bytes).isEmpty

/-- A line that is neither blank nor a record. -/
def isMalformed (bytes : List UInt8) : Bool :=
  !isBlank bytes && (Element.ofLine? (trimLine bytes)).isNone

namespace Past

/-- How many ranges were declared again while they waited for a document. -/
def replaced (base : Store) : Past → Nat
  | [] => 0
  | .vertex (.range id _) :: past => replaced base past + (waiting? base id past).isSome.toNat
  | _ :: past => replaced base past

/-- Whether a record is a `next` edge from one result set to another. -/
def joinsResultSets (base : Store) (past : Past) : Element → Bool
  | .edge (.next outV inV) =>
    (past.resultSetRow? base inV).isSome && (past.waiting? base outV).isNone &&
      (past.stored? base outV).isNone && (past.resultSetRow? base outV).isSome
  | _ => false

/-- Links between result sets are not followed. -/
def unfollowed (base : Store) : Past → Nat
  | [] => 0
  | e :: past => unfollowed base past + (joinsResultSets base past e).toNat

theorem length_targets (base : Store) (past : Past) :
    (past.targets base).length = (past.flatMap Element.targets).length := by
  induction past with
  | nil => rfl
  | cons e past ih =>
    rw [List.flatMap_cons, List.length_append, ← ih]
    cases e with
    | vertex v => exact (Nat.zero_add _).symm
    | edge e =>
      cases e with
      | item outV inVs inV property =>
        simp only [targets, Element.targets, List.length_append, List.length_map]
        omega
      | _ => exact (Nat.zero_add _).symm

end Past

theorem countP_toList {α : Type} (a : Option α) (test : α → Bool) :
    a.toList.countP test = (a.any test).toNat := by
  cases a with
  | none => rfl
  | some a => cases h : test a <;> simp [h]

theorem countP_one {α : Type} (a : α) (test : α → Bool) :
    [a].countP test = (test a).toNat := countP_toList (some a) test

theorem records_concat (lines : List (List UInt8)) (bytes : List UInt8) :
    (lines ++ [bytes]).filterMap (fun bytes => Element.ofLine? (trimLine bytes)) =
      lines.filterMap (fun bytes => Element.ofLine? (trimLine bytes)) ++
        (Element.ofLine? (trimLine bytes)).toList := by
  rw [List.filterMap_append, List.filterMap_cons]
  cases Element.ofLine? (trimLine bytes) <;> rfl

theorem Past.unfollowed_toList (base : Store) (e : Option Element) (past : Past) :
    unfollowed base (e.toList.reverse ++ past) =
      unfollowed base past + (e.any (joinsResultSets base past)).toNat := by
  cases e <;> rfl

theorem length_lines (lines : List (List UInt8)) :
    let records := lines.filterMap fun bytes => Element.ofLine? (trimLine bytes)
    lines.length = lines.countP isBlank + lines.countP isMalformed +
      records.countP Element.isVertex + records.countP Element.isEdge := by
  intro records
  have blank : Element.ofLine? [] = none := rfl
  induction lines using List.reverseRecOn with
  | nil => rfl
  | append_singleton lines bytes ih =>
    have hline : 1 = (isBlank bytes).toNat + (isMalformed bytes).toNat +
        ((Element.ofLine? (trimLine bytes)).any Element.isVertex).toNat +
        ((Element.ofLine? (trimLine bytes)).any Element.isEdge).toNat := by
      unfold isMalformed isBlank
      cases trimLine bytes with
      | nil =>
        rw [blank]
        rfl
      | cons first rest =>
        cases Element.ofLine? (first :: rest) with
        | none => rfl
        | some e => cases e <;> rfl
    simp only [records, records_concat, List.length_append, List.length_singleton,
      List.countP_append, countP_one, countP_toList]
    omega

/-- The counts of a report, but for the ends that dangle and the ranges that are dropped. -/
structure Report.Shows (r : Report) (lines malformed vertices edges ignored : Nat) : Prop where
  lines : r.lines = lines
  malformed : r.malformedLines = malformed
  vertices : r.vertices = vertices
  edges : r.edges = edges
  ignored : r.ignoredRecords = ignored

namespace Stage

variable {base : Store} {past : Past} {p : Stage} {lines malformed vertices edges ignored : Nat}

theorem shows_vertex (h : p.ingestion.report.Shows lines malformed vertices edges ignored)
    (v : Vertex) :
    (p.vertex v).ingestion.report.Shows lines malformed vertices edges
      (ignored + (Element.vertex v).isOther.toNat) := by
  cases v with
  | other => exact { h with ignored := congrArg Nat.succ h.ignored }
  | _ => exact { h with }

theorem shows_claims (h : p.ingestion.report.Shows lines malformed vertices edges ignored)
    (document : Int) (ids : List Int) :
    (ids.foldl (claim document) p).ingestion.report.Shows lines malformed vertices edges
      ignored := by
  refine List.foldlRecOn (motive := fun q : Stage =>
    q.ingestion.report.Shows lines malformed vertices edges ignored) ids (claim document) h
    fun q hq id _ => ?_
  unfold claim
  split <;> exact { hq with }

theorem shows_items (h : p.ingestion.report.Shows lines malformed vertices edges ignored)
    (bucket : Int) (property : Option String) (ids : List Int) :
    (ids.foldl (item bucket property) p).ingestion.report.Shows lines malformed vertices edges
      ignored := by
  refine List.foldlRecOn (motive := fun q : Stage =>
    q.ingestion.report.Shows lines malformed vertices edges ignored) ids (item bucket property) h
    fun q hq id _ => ?_
  unfold item
  split <;> exact { hq with }

theorem shows_next (h : p.ingestion.report.Shows lines malformed vertices edges ignored)
    (hr : Recalls base past p) (outV inV : Int) :
    (p.next outV inV).ingestion.report.Shows lines malformed vertices edges
      (ignored + (past.joinsResultSets base (.edge (.next outV inV))).toNat) := by
  have hto : p.known.resultSets.get? inV = past.resultSetRow? base inV := hr.resultSets.1 inV
  have hfrom : p.known.resultSets.has outV = (past.resultSetRow? base outV).isSome :=
    congrArg Option.isSome (hr.resultSets.1 outV)
  simp only [next, Past.joinsResultSets, hto, hfrom, hr.waiting outV, hr.stored outV]
  cases past.resultSetRow? base inV with
  | none => exact { h with }
  | some resultSet =>
    cases past.waiting? base outV with
    | some range => exact { h with }
    | none =>
      cases past.stored? base outV with
      | some range => exact { h with }
      | none =>
        cases past.resultSetRow? base outV with
        | none => exact { h with }
        | some row => exact { h with ignored := congrArg Nat.succ h.ignored }

theorem shows_edge (h : p.ingestion.report.Shows lines malformed vertices edges ignored)
    (hr : Recalls base past p) (e : Edge) :
    (p.edge e).ingestion.report.Shows lines malformed vertices edges
      (ignored + (Element.edge e).isOther.toNat +
        (past.joinsResultSets base (.edge e)).toNat) := by
  cases e with
  | contains outV inVs =>
    simp only [edge]
    cases p.known.documents.get? outV with
    | none => exact { h with }
    | some document => exact shows_claims h document inVs
  | next outV inV => exact shows_next h hr outV inV
  | item outV inVs inV property => exact shows_items h outV property _
  | other => exact { h with ignored := congrArg Nat.succ h.ignored }
  | _ =>
    simp only [edge, bucket]
    split <;> exact { h with }

theorem shows_line (h : p.ingestion.report.Shows lines malformed vertices edges ignored)
    (hr : Recalls base past p) (bytes : List UInt8) :
    let record := Element.ofLine? (trimLine bytes)
    (p.line bytes).ingestion.report.Shows (lines + 1) (malformed + (isMalformed bytes).toNat)
      (vertices + (record.any Element.isVertex).toNat) (edges + (record.any Element.isEdge).toNat)
      (ignored + (record.any Element.isOther).toNat +
        (record.any (past.joinsResultSets base)).toNat) := by
  have blank : Element.ofLine? [] = none := rfl
  have hl : Report.Shows (p.counting fun r => { r with lines := r.lines + 1 }).ingestion.report
      (lines + 1) malformed vertices edges ignored :=
    { h with lines := congrArg Nat.succ h.lines }
  unfold isMalformed isBlank line
  cases ht : trimLine bytes with
  | nil =>
    rw [blank]
    exact hl
  | cons first rest =>
    cases he : Element.ofLine? (first :: rest) with
    | none =>
      simp only [he]
      exact { hl with malformed := congrArg Nat.succ h.malformed }
    | some e =>
      simp only [he]
      cases e with
      | vertex v =>
        have hv : Report.Shows ((p.counting fun r => { r with lines := r.lines + 1 }).counting
            fun r => { r with vertices := r.vertices + 1 }).ingestion.report (lines + 1) malformed
            (vertices + 1) edges ignored := { hl with vertices := congrArg Nat.succ h.vertices }
        exact shows_vertex hv v
      | edge e =>
        have hcounted : Report.Shows ((p.counting fun r => { r with lines := r.lines + 1 }).counting
            fun r => { r with edges := r.edges + 1 }).ingestion.report (lines + 1) malformed
            vertices (edges + 1) ignored := { hl with edges := congrArg Nat.succ h.edges }
        exact shows_edge hcounted { hr with } e

theorem shows_lines (s : Store) (about : RunMeta) (createdAt : Int) (ho : s.ranges.Ordered)
    (lines : List (List UInt8)) :
    let records := lines.filterMap fun bytes => Element.ofLine? (trimLine bytes)
    (lines.foldl Stage.line
        ⟨.start (s.runs.last + 1), s.withRun about createdAt⟩).ingestion.report.Shows
      lines.length (lines.countP isMalformed) (records.countP Element.isVertex)
      (records.countP Element.isEdge)
      (records.countP Element.isOther + Past.unfollowed s records.reverse) := by
  intro records
  induction lines using List.reverseRecOn with
  | nil => exact ⟨rfl, rfl, rfl, rfl, rfl⟩
  | append_singleton lines bytes ih =>
    have hrecalls := (recalls_follows ho).lines (recalls_start s about createdAt) lines
    rw [List.append_nil] at hrecalls
    have hline := shows_line ih hrecalls bytes
    simp only [records, records_concat, List.foldl_append, List.foldl_cons, List.foldl_nil,
      List.length_append, List.length_singleton, List.countP_append, countP_one, countP_toList,
      List.reverse_append, Past.unfollowed_toList]
    exact { hline with ignored := hline.ignored.trans (by omega) }

end Stage

namespace Table

variable {α : Type} {t : Table α} {test : α → Bool}

/-- How many of the numbers that were given out are not those of rows that pass a test. -/
def others (t : Table α) (test : α → Bool) : Int := t.last - t.count test

theorem others_insert {row : α} (h : test row = true) :
    (t.insert row).others test = t.others test := by
  have hcount : (t.insert row).count test = t.count test + 1 := by
    unfold count
    rw [rows_insert, List.countP_append, List.countP_singleton, if_pos h]
  unfold others
  rw [hcount, last_insert]
  omega

theorem others_modify {id : Int} {change : α → α} (h : ∀ a, test (change a) = test a) :
    (t.modify id change).others test = t.others test := by
  have hcount : (t.modify id change).count test = t.count test := by
    unfold count modify
    rw [List.countP_map]
    refine List.countP_congr fun r _ => ?_
    by_cases hr : r.1 = id <;> simp [hr, h]
  unfold others
  rw [hcount]
  rfl

/-- If no row passed at first, those that pass in the end are as many as the new numbers. -/
theorem count_eq_of_others {u : Table α} {test' : α → Bool} {n : Nat}
    (h : u.others test' = t.others test) (h0 : t.count test = 0) (hn : u.last = t.last + n) :
    u.count test' = n := by
  unfold others at h
  omega

end Table

namespace Store

variable {run : Int} {s t : Store}

def rangeOf (s : Store) (run : Int) (r : Range) : Bool :=
  s.documents.holds r.document fun d => d.run == run

/-- The numbers that tables give out go to rows of the run. -/
structure Fills (run : Int) (s t : Store) : Prop where
  documents : t.documents.others (·.run == run) = s.documents.others (·.run == run)
  resultSets : t.resultSets.others (·.run == run) = s.resultSets.others (·.run == run)
  monikers : t.monikers.others (·.run == run) = s.monikers.others (·.run == run)
  hovers : t.hovers.others (·.run == run) = s.hovers.others (·.run == run)
  packages : t.packages.others (·.run == run) = s.packages.others (·.run == run)
  ranges : t.ranges.others (t.rangeOf run) = s.ranges.others (s.rangeOf run)

theorem Fills.refl (run : Int) (s : Store) : Fills run s s := ⟨rfl, rfl, rfl, rfl, rfl, rfl⟩

theorem others_withDocument (h : s.Scoped) (run : Int) (uri : String)
    (languageId : Option String) :
    s.ranges.others ((s.withDocument run uri languageId).rangeOf run) =
      s.ranges.others (s.rangeOf run) := by
  unfold Table.others Table.count
  congr 2
  refine List.countP_congr fun r hr => ?_
  obtain ⟨owner, howner, -⟩ := h.ranges r hr
  obtain ⟨d, hd, -⟩ := Table.view_eq_some_iff.mp howner
  have hd' : (s.withDocument run uri languageId).documents.get? r.2.document = some d :=
    Table.get?_insert_of_some hd
  unfold rangeOf Table.holds
  rw [hd, hd']

theorem Write.fills (w : Write run s t) (h : s.Scoped) : Fills run s t := by
  have hr := Fills.refl run s
  have hown : (run == run) = true := beq_self_eq_true run
  cases w with
  | document uri languageId =>
    have hranges := others_withDocument h run uri languageId
    exact { hr with documents := Table.others_insert hown, ranges := hranges }
  | hover contents => exact { hr with hovers := Table.others_insert hown }
  | package name version manager => exact { hr with packages := Table.others_insert hown }
  | moniker scheme identifier kind _ => exact { hr with monikers := Table.others_insert hown }
  | resultSet => exact { hr with resultSets := Table.others_insert hown }
  | range span hd _ =>
    obtain ⟨d, hd, hrun⟩ := Table.view_eq_some_iff.mp hd
    refine { hr with ranges := Table.others_insert ?_ }
    exact Table.holds_iff.mpr ⟨d, hd, beq_iff_eq.mpr hrun⟩
  | settingBucket kind bucket _ =>
    refine { hr with resultSets := Table.others_modify fun r => ?_ }
    rw [(setBucket_other r bucket kind).1]
  | settingHover _ _ =>
    refine { hr with resultSets := ?_ }
    exact Table.others_modify fun _ => rfl
  | settingMoniker _ _ =>
    refine { hr with resultSets := ?_ }
    exact Table.others_modify fun _ => rfl
  | settingPackage _ _ =>
    refine { hr with monikers := ?_ }
    exact Table.others_modify fun _ => rfl
  | settingResultSet _ _ =>
    refine { hr with ranges := ?_ }
    exact Table.others_modify fun _ => rfl
  | _ => exact { hr with }

theorem Fills.trans {u : Store} (h : Fills run s t) (h' : Fills run t u) : Fills run s u :=
  ⟨h'.documents.trans h.documents, h'.resultSets.trans h.resultSets,
    h'.monikers.trans h.monikers, h'.hovers.trans h.hovers, h'.packages.trans h.packages,
    h'.ranges.trans h.ranges⟩

theorem fills_writes (h : s.Scoped) (hr : s.runs.has run = true)
    (path : Relation.ReflTransGen (Write run) s t) : Fills run s t :=
  writes_keep (motive := Fills run s) h hr (.refl run s) (fun ha w hf => hf.trans (w.fills ha))
    path

end Store

namespace IdMap

variable {α : Type} {m : IdMap α}

theorem size_erase (h : m.Distinct) (id : Int) :
    (m.erase id).size + (m.get? id).isSome.toNat = m.size := by
  have hid : m.pairs.countP (fun pair => ¬ (pair.1 != id) = true) = (m.get? id).isSome.toNat := by
    have hkeys : m.pairs.countP (fun pair => ¬ (pair.1 != id) = true) =
        (m.pairs.map Prod.fst).count id := by
      rw [List.count, List.countP_map]
      refine List.countP_congr fun pair _ => ?_
      simp
    rw [hkeys, List.Nodup.count h]
    by_cases hm : id ∈ m.pairs.map Prod.fst
    · rw [if_pos hm, mem_keys_iff.mp hm]
      rfl
    · rw [if_neg hm, Bool.eq_false_of_not_eq_true (mt mem_keys_iff.mpr hm)]
      rfl
  have hsplit := List.length_eq_countP_add_countP (l := m.pairs) fun pair => pair.1 != id
  rw [hid, List.countP_eq_length_filter] at hsplit
  exact hsplit.symm

theorem size_insert (h : m.Distinct) (id : Int) (value : α) :
    (m.insert id value).size + (m.get? id).isSome.toNat = m.size + 1 := by
  have herase := size_erase h id
  change (m.erase id).size + 1 + _ = _
  omega

end IdMap

namespace Stage

variable {base : Store} {past : Past} {p : Stage}

/-- Every range that was declared waits, is stored, or was declared again. -/
structure Balances (base : Store) (past : Past) (p : Stage) : Prop where
  recalls : Recalls base past p
  distinct : p.known.unclaimed.Distinct
  ranges : p.known.unclaimed.size + p.store.ranges.last + past.replaced base =
    base.ranges.last + past.countP fun e => e.range?.isSome

theorem size_claim (h : p.known.unclaimed.Distinct) (document id : Int) :
    ((claim document p id).known.unclaimed.size : Int) + (claim document p id).store.ranges.last =
      p.known.unclaimed.size + p.store.ranges.last := by
  have herase := IdMap.size_erase h id
  unfold claim
  split
  next => rfl
  next range hu =>
    rw [hu] at herase
    change ((p.known.unclaimed.erase id).size : Int) + (p.store.ranges.last + 1) = _
    change _ + 1 = _ at herase
    omega

theorem size_claims (h : p.known.unclaimed.Distinct) (document : Int) (ids : List Int) :
    ((ids.foldl (claim document) p).known.unclaimed.size : Int) +
        (ids.foldl (claim document) p).store.ranges.last =
      p.known.unclaimed.size + p.store.ranges.last := by
  induction ids generalizing p with
  | nil => rfl
  | cons id rest ih =>
    have hfirst : (claim document p id).known.unclaimed.Distinct := by
      unfold claim
      split
      next => exact h
      next => exact h.erase id
    rw [List.foldl_cons, ih hfirst, size_claim h]

theorem size_next (h : p.known.unclaimed.Distinct) (outV inV : Int) :
    (p.next outV inV).known.unclaimed.size = p.known.unclaimed.size ∧
      (p.next outV inV).store.ranges.last = p.store.ranges.last := by
  unfold next
  split
  next => exact ⟨rfl, rfl⟩
  next resultSet _ =>
    split
    next range hu =>
      have hinsert := IdMap.size_insert h outV { range with resultSet := some resultSet }
      rw [hu] at hinsert
      exact ⟨Nat.succ.inj hinsert, rfl⟩
    next => exact ⟨rfl, rfl⟩
    next => split <;> exact ⟨rfl, rfl⟩

theorem size_edge (h : p.known.unclaimed.Distinct) (e : Edge) :
    ((p.edge e).known.unclaimed.size : Int) + (p.edge e).store.ranges.last =
      p.known.unclaimed.size + p.store.ranges.last := by
  cases e with
  | contains outV inVs =>
    simp only [edge]
    split
    next => rfl
    next document _ => exact size_claims h document inVs
  | next outV inV =>
    obtain ⟨hsize, hlast⟩ := size_next h outV inV
    simp only [edge]
    rw [hsize, hlast]
  | item outV inVs inV property =>
    simp only [edge]
    rw [(items_known outV property _ p).2, items_store]
    rfl
  | bucket kind outV inV =>
    simp only [edge, bucket, learn_learnKind]
    split <;> rfl
  | other => rfl
  | _ =>
    simp only [edge]
    split <;> rfl

theorem Balances.range (h : Balances base past p) (id : Int) (span : Span) :
    Balances base (.vertex (.range id span) :: past) (p.vertex (.range id span)) := by
  refine ⟨h.recalls.vertex _, h.distinct.insert id _, ?_⟩
  have hbefore := h.ranges
  have hinsert := IdMap.size_insert h.distinct id ⟨span, none⟩
  rw [h.recalls.waiting id] at hinsert
  rw [List.countP_cons_of_pos rfl]
  change ((p.known.unclaimed.insert id ⟨span, none⟩).size : Int) + p.store.ranges.last +
    (past.replaced base + (past.waiting? base id).isSome.toNat : Nat) = _
  omega

theorem balances_follows (ho : base.ranges.Ordered) : Follows (Balances base) where
  counting hc hd h := ⟨(recalls_follows ho).counting hc hd h.recalls, h.distinct, h.ranges⟩
  vertex v h := by
    have hrecalls := h.recalls.vertex v
    have hdistinct := distinct_kept.vertex v h.distinct
    cases v with
    | range id span => exact h.range id span
    | bucket kind id =>
      simp only [Stage.vertex, learn_learnKind] at hrecalls hdistinct ⊢
      exact ⟨hrecalls, hdistinct, h.ranges⟩
    | _ => exact ⟨hrecalls, hdistinct, h.ranges⟩
  edge e h := by
    refine ⟨h.recalls.edge ho e, distinct_kept.edge e h.distinct, ?_⟩
    rw [size_edge h.distinct e]
    exact h.ranges

theorem balances_start (s : Store) (about : RunMeta) (createdAt : Int) :
    Balances s [] ⟨.start (s.runs.last + 1), s.withRun about createdAt⟩ :=
  ⟨recalls_start s about createdAt, List.nodup_nil, by
    change (0 : Int) + s.ranges.last + 0 = s.ranges.last + 0
    omega⟩

end Stage

section Dumps

variable {access : Access} {s t : Store} {settings : IngestSettings} {about : RunMeta}
  {stream : ByteStream} {report : Report}

theorem stats_stageAfter (h : s.Scoped) (about : RunMeta) (access : Access)
    (stream : ByteStream) :
    let p := stageAfter about access s stream.lines
    let past : Past := stream.records.reverse
    let stats := p.store.stats (s.runs.last + 1)
    (stats.documents = past.countP (fun e => e.documentId?.isSome) ∧
      stats.resultSets = past.countP (fun e => e.resultSetId?.isSome) ∧
      stats.monikers = past.countP (fun e => e.monikerId?.isSome) ∧
      stats.hovers = past.countP (fun e => e.hoverId?.isSome) ∧
      stats.packages = past.countP (fun e => e.packageId?.isSome)) ∧
    stats.ranges + p.known.unclaimed.size + past.replaced s =
      past.countP fun e => e.range?.isSome := by
  intro p past stats
  have ha := abides_stageAfter h about access stream
  have hb := (Stage.balances_follows h.ordered.ranges).stageAfter about access stream
    (Stage.balances_start s about _)
  have hg := Stage.grounded_start h about (about.createdAt.getD access.clock)
  have hpath := ha.grounded.path
  rw [ha.awaits.run] at hpath
  have hfills := Store.fills_writes hg.keeps hg.live hpath
  have hnone : s.stats (s.runs.last + 1) = ⟨0, 0, 0, 0, 0, 0, 0, 0, 0⟩ :=
    Store.stats_absent h fun hhas => h.ordered.runs.ne_next hhas rfl
  refine ⟨⟨?_, ?_, ?_, ?_, ?_⟩, ?_⟩
  · exact Table.count_eq_of_others hfills.documents (congrArg RunStats.documents hnone)
      ha.recalls.documents.2
  · exact Table.count_eq_of_others hfills.resultSets (congrArg RunStats.resultSets hnone)
      ha.recalls.resultSets.2
  · exact Table.count_eq_of_others hfills.monikers (congrArg RunStats.monikers hnone)
      ha.recalls.monikers.2
  · exact Table.count_eq_of_others hfills.hovers (congrArg RunStats.hovers hnone)
      ha.recalls.hovers.2
  · exact Table.count_eq_of_others hfills.packages (congrArg RunStats.packages hnone)
      ha.recalls.packages.2
  · have hlast : p.store.ranges.last = s.ranges.last + (past.placed s).length := by
      rw [ha.recalls.ranges, last_rangesWith]
    have hranges : stats.ranges = (past.placed s).length :=
      Table.count_eq_of_others hfills.ranges (congrArg RunStats.ranges hnone) hlast
    have hbalance := hb.ranges
    rw [← hranges] at hlast
    change (p.known.unclaimed.size : Int) + p.store.ranges.last + past.replaced s =
      s.ranges.last + (past.countP fun e => e.range?.isSome : Nat) at hbalance
    omega

theorem ingest_ok_shows (h : s.Scoped)
    (hi : ingest settings about stream access s = (.ok report, t)) :
    report.Shows stream.lines.length (stream.lines.countP isMalformed)
      (stream.records.countP Element.isVertex) (stream.records.countP Element.isEdge)
      (stream.records.countP Element.isOther + Past.unfollowed s stream.records.reverse) := by
  obtain ⟨stored, mid, hg, hreport, -⟩ := ingest_ok_graph hi
  obtain ⟨-, p, rfl, rfl, -⟩ := ingestGraph_stage hg
  have hshows := Stage.shows_lines s about (about.createdAt.getD access.clock) h.ordered.ranges
    stream.lines
  rw [hreport]
  exact { hshows with }

theorem length_itemRows (s : Store) (run : Int) :
    (s.definitionRows run).length = (s.stats run).definitionItems ∧
      (s.referenceRows run).length = (s.stats run).referenceItems := by
  unfold Store.definitionRows Store.referenceRows
  rw [List.length_filterMap_eq_countP, List.length_filterMap_eq_countP]
  constructor
  · refine List.countP_congr fun r _ => ?_
    by_cases hr : r.2.run = run <;> simp [hr]
  · refine List.countP_congr fun r _ => ?_
    by_cases hr : r.2.run = run <;> simp [hr]

theorem items_stageAfter (h : s.Scoped) (about : RunMeta) (access : Access)
    (stream : ByteStream) :
    let stats := (stageAfter about access s stream.lines).store.stats (s.runs.last + 1)
    stats.definitionItems + stats.referenceItems +
        (Past.targets s stream.records.reverse).countP (fun target => target.range.isNone) =
      (stream.records.flatMap Element.targets).length := by
  intro stats
  have hroutes := routes_stageAfter h about access stream
  have htotal := Target.rows_and_dangling (s.runs.last + 1) (Past.targets s stream.records.reverse)
  rw [← hroutes.definitionRows h rfl, ← hroutes.referenceRows h rfl, Past.length_targets] at htotal
  obtain ⟨hdefinitions, hreferences⟩ :=
    length_itemRows (stageAfter about access s stream.lines).store (s.runs.last + 1)
  have hlength : (stream.records.reverse.flatMap Element.targets).length =
      (stream.records.flatMap Element.targets).length :=
    ((List.reverse_perm _).flatMap_right _).length_eq
  rw [hdefinitions, hreferences, hlength] at htotal
  exact htotal

/-- What is counted and what is stored account for the whole dump: a line is blank, malformed, a
vertex or an edge; a vertex has its row, but for a range that is dropped or was declared again; a
target of an item edge has its row or dangles; and a record is ignored if nothing knows its label
or it links two result sets. -/
theorem counts_account_for_dump (h : Reachable s)
    (hi : ingest settings about stream access s = (.ok report, t)) :
    let past : Past := stream.records.reverse
    let stats := t.stats report.run
    let unstored := (past.targets s).countP fun target => target.range.isNone
    (report.lines = stream.lines.countP isBlank + report.malformedLines + report.vertices +
        report.edges ∧
      report.lines = stream.lines.length ∧
      report.malformedLines = stream.lines.countP isMalformed ∧
      report.vertices = stream.records.countP Element.isVertex ∧
      report.edges = stream.records.countP Element.isEdge) ∧
    (stats.documents = stream.records.countP (fun e => e.documentId?.isSome) ∧
      stats.resultSets = stream.records.countP (fun e => e.resultSetId?.isSome) ∧
      stats.monikers = stream.records.countP (fun e => e.monikerId?.isSome) ∧
      stats.hovers = stream.records.countP (fun e => e.hoverId?.isSome) ∧
      stats.packages = stream.records.countP (fun e => e.packageId?.isSome)) ∧
    stats.ranges + report.droppedRanges + past.replaced s =
      stream.records.countP (fun e => e.range?.isSome) ∧
    (stats.definitionItems + stats.referenceItems + unstored =
        (stream.records.flatMap Element.targets).length ∧
      report.danglingReferences = past.danglingTotal s + unstored) ∧
    report.ignoredRecords = stream.records.countP Element.isOther + past.unfollowed s := by
  intro past stats unstored
  have hs := h.scoped
  have hshows := ingest_ok_shows hs hi
  have hlines := length_lines stream.lines
  obtain ⟨hrun, hdangling, ht⟩ := ingest_ok_stage hi
  obtain ⟨hvertices, hranges⟩ := stats_stageAfter hs about access stream
  have hitems := items_stageAfter hs about access stream
  -- Occurrences apart, the store is the one that the lines leave.
  have hstats : stats = { (stageAfter about access s stream.lines).store.stats (s.runs.last + 1)
      with occurrences := t.occurrenceTotal report.run } := by
    change t.stats report.run = _
    rw [ht, hrun]
    rfl
  simp only [List.countP_reverse] at hvertices hranges
  rw [hstats]
  refine ⟨⟨?_, hshows.lines, hshows.malformed, hshows.vertices, hshows.edges⟩, hvertices, ?_,
    ⟨hitems, ?_⟩, hshows.ignored⟩
  · rw [hshows.lines, hshows.malformed, hshows.vertices, hshows.edges]
    exact hlines
  · rw [ingest_ok_dropped hi]
    exact hranges
  · rw [hdangling]
    exact (abides_stageAfter hs about access stream).recalls.dangling

end Dumps

/-- A dump in which all of it happens: a range is declared again before and after a document takes
it, another one is never taken and is named by an item edge all the same, a result set links to
another one, and among the lines are a blank one, a broken one and one with a foreign label. -/
def untidyLines : List (List UInt8) :=
  ["[\"vertex\",\"document\",1,\"a\",null]", " \t", "[\"vertex\",\"range\",2,[0,4],[0,7]]",
    "[\"vertex\",\"range\",2,[1,0],[1,3]]", "[\"vertex\",\"range\",5,[2,0],[2,3]]",
    "[\"edge\",\"contains\",1,[2]]", "[\"vertex\",\"range\",2,[3,0],[3,4]]",
    "[\"vertex\",\"resultSet\",3]", "[\"vertex\",\"resultSet\",4]", "[\"edge\",\"next\",3,4]",
    "[\"vertex\"", "[\"vertex\",\"project\"]", "[\"edge\",\"item\",10,[2,5],null,\"definitions\"]",
    "[\"vertex\",\"hoverResult\",7,\"f\"]", "[\"vertex\",\"moniker\",8,\"npm\",\"a:f\",null,null]",
    "[\"vertex\",\"packageInformation\",9,\"left-pad\",null,null]"].map fun line =>
      line.toUTF8.toList

def untidyReport : Report where
  run := 1
  lines := 16
  vertices := 11
  edges := 3
  malformedLines := 1
  ignoredRecords := 2
  danglingReferences := 1
  droppedRanges := 2
  derivation := some ⟨0, 0, 0, 0⟩

def untidyStore : Store where
  runs := ⟨1, [(1, { repo := none, commit := none, createdAt := 0 })]⟩
  documents := ⟨1, [(1, ⟨1, "a", none⟩)]⟩
  resultSets := ⟨2, [(1, { run := 1 }), (2, { run := 1 })]⟩
  monikers := ⟨1, [(1, ⟨1, "npm", "a:f", none, none⟩)]⟩
  symbols := ⟨1, [(1, ⟨"npm", "a:f", "f", none⟩)]⟩
  links := [⟨1, 1⟩]
  hovers := ⟨1, [(1, ⟨1, "f"⟩)]⟩
  packages := ⟨1, [(1, ⟨1, "left-pad", none, none⟩)]⟩
  ranges := ⟨1, [(1, ⟨1, .ofCoords 1 0 1 3, none⟩)]⟩
  definitionItems := ⟨1, [(1, ⟨1, 10, 1, 1⟩)]⟩
  searchIndex := [⟨1, "f", "a:f"⟩]

/-- Of four ranges one is stored, one was declared again and two are dropped. -/
theorem untidy_dump_accounted :
    let stream := ByteStream.ofLines untidyLines
    let past : Past := stream.records.reverse
    16 = stream.lines.countP isBlank + 1 + 11 + 3 ∧
      (untidyStore.stats 1).resultSets = stream.records.countP (fun e => e.resultSetId?.isSome) ∧
      1 + 2 + past.replaced .empty = stream.records.countP (fun e => e.range?.isSome) ∧
      1 + 0 + (past.targets .empty).countP (fun target => target.range.isNone) =
        (stream.records.flatMap Element.targets).length ∧
      2 = stream.records.countP Element.isOther + past.unfollowed .empty := by
  have hi : ingest {} {} (.ofLines untidyLines) {} .empty = (.ok untidyReport, untidyStore) := by
    decide +kernel
  obtain ⟨⟨hlines, -⟩, ⟨-, hresultSets, -⟩, hranges, ⟨htargets, -⟩, hignored⟩ :=
    counts_account_for_dump .empty hi
  exact ⟨hlines, hresultSets, hranges, htargets, hignored⟩

end SymbolAtlas
