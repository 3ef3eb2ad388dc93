import SymbolAtlas.Proofs.Clean
import SymbolAtlas.Proofs.Mirror

namespace SymbolAtlas

/-- Whether a vertex declares the id as a range or as a result set. -/
def Vertex.declares (id : Int) : Vertex → Bool
  | range j _ => j == id
  | resultSet j => j == id
  | _ => false

/-- How often lines declare the id as a range or as a result set. -/
def declarationsOf (id : Int) (lines : List (List UInt8)) : Nat :=
  lines.countP fun line => (vertexOfLine? line).any (Vertex.declares id)

theorem IdMap.has_erase {α : Type} (m : IdMap α) (id j : Int) :
    (m.erase id).has j = (!decide (j = id) && m.has j) := by
  unfold has
  rw [get?_erase]
  by_cases h : j = id
  · simp [h]
  · simp [h]

namespace Known

/-- In how many ways an id can lead to a result set. -/
def ways (k : Known) (id : Int) : Nat :=
  (k.resultSets.has id).toNat + (k.claimed.has id).toNat + (k.unclaimed.has id).toNat

/-- No result set but the given one is found before the one of the range that a `next` edge finds
first: neither one under the id itself, nor that of a range that was claimed under the id before
it was declared again. -/
structure LeadsOnlyTo (k : Known) (id row : Int) : Prop where
  own : ∀ own, k.resultSets.get? id = some own → own = row
  claimed : k.resultSets.get? id = none → ∀ waiting range, k.unclaimed.get? id = some waiting →
    k.claimed.get? id = some range → range.resultSet = some row

variable {k : Known} {id row : Int}

theorem leadsOnlyTo_iff_own {own : Int} (hs : k.resultSets.get? id = some own) :
    k.LeadsOnlyTo id row ↔ own = row := by
  refine ⟨fun hl => hl.own own hs, fun he => ⟨fun own' ho => ?_, fun hn => ?_⟩⟩
  · exact (Option.some.inj (ho.symm.trans hs)).trans he
  · simp [hs] at hn

theorem leadsOnlyTo_of_one_range (hs : k.resultSets.get? id = none)
    (h : k.unclaimed.get? id = none ∨ k.claimed.get? id = none) : k.LeadsOnlyTo id row := by
  refine ⟨fun own ho => ?_, fun _ waiting range hw hc => ?_⟩
  · simp [hs] at ho
  · rcases h with hn | hn
    · simp [hn] at hw
    · simp [hn] at hc

theorem ways_learnKind (k : Known) (bucket : Int) (kind : BucketKind) (id : Int) :
    (k.learnKind bucket kind).ways id = k.ways id := by
  rw [learnKind_eq]
  rfl

theorem leadsOnlyTo_of_ways (h : k.ways id ≤ 1)
    (hr : k.unclaimed.has id = true ∨ k.claimed.has id = true) : k.LeadsOnlyTo id row := by
  have hfound : 1 ≤ (k.claimed.has id).toNat + (k.unclaimed.has id).toNat := by
    rcases hr with hr | hr
    · simp [hr]
    · simp [hr]
  unfold ways at h
  constructor
  · intro own ho
    have hs : k.resultSets.has id = true := by simp [IdMap.has, ho]
    rw [hs, Bool.toNat_true] at h
    omega
  · intro _ waiting range hw hc
    have hu : k.unclaimed.has id = true := by simp [IdMap.has, hw]
    have hk : k.claimed.has id = true := by simp [IdMap.has, hc]
    rw [hu, hk, Bool.toNat_true] at h
    omega

end Known

namespace Stage

variable {p : Stage}

theorem ways_vertex (p : Stage) (v : Vertex) (id : Int) :
    (p.vertex v).known.ways id ≤ p.known.ways id + (v.declares id).toNat := by
  cases v with
  | range j span =>
    simp only [vertex, learn, known, Ingestion.learn, Known.ways, Vertex.declares,
      IdMap.has_insert]
    by_cases h : id = j
    · simp only [h, decide_true, Bool.true_or, Bool.toNat_true, beq_self_eq_true]
      omega
    · simp [h]
  | resultSet j =>
    simp only [vertex, learn, known, Ingestion.learn, Known.ways, Vertex.declares,
      IdMap.has_insert]
    by_cases h : id = j
    · simp only [h, decide_true, Bool.true_or, Bool.toNat_true, beq_self_eq_true]
      omega
    · simp [h]
  | bucket kind j =>
    refine Nat.le_trans (Nat.le_of_eq ?_) (Nat.le_add_right _ _)
    exact Known.ways_learnKind p.known j kind id
  | _ => exact Nat.le_add_right _ _

theorem ways_claim (document : Int) (p : Stage) (j id : Int) :
    (p.claim document j).known.ways id ≤ p.known.ways id := by
  unfold claim
  split
  next => exact Nat.le_refl _
  next range hu =>
    have hw : p.known.unclaimed.has j = true := by simp [IdMap.has, hu]
    simp only [learn, known, Ingestion.learn, Known.ways, IdMap.has_insert, IdMap.has_erase]
    by_cases h : id = j
    · subst h
      rw [hw]
      simp only [decide_true, Bool.true_or, Bool.toNat_true, Bool.not_true, Bool.false_and,
        Bool.toNat_false]
      omega
    · simp [h]

theorem ways_claims (document : Int) (ids : List Int) (p : Stage) (id : Int) :
    (ids.foldl (claim document) p).known.ways id ≤ p.known.ways id :=
  List.foldlRecOn (motive := fun q : Stage => q.known.ways id ≤ p.known.ways id) ids
    (claim document) (Nat.le_refl _) fun q hq j _ => Nat.le_trans (ways_claim document q j id) hq

theorem ways_next (p : Stage) (outV inV id : Int) :
    (p.next outV inV).known.ways id ≤ p.known.ways id := by
  unfold next
  split
  next => exact Nat.le_refl _
  next resultSet _ =>
    split
    next range hu =>
      have hw : p.known.unclaimed.has outV = true := by simp [IdMap.has, hu]
      simp only [learn, known, Ingestion.learn, Known.ways, IdMap.has_insert]
      by_cases h : id = outV
      · simp [h, hw]
      · simp [h]
    next range _ hc =>
      have hk : p.known.claimed.has outV = true := by simp [IdMap.has, hc]
      simp only [learn, known, Ingestion.learn, Known.ways, IdMap.has_insert]
      by_cases h : id = outV
      · simp [h, hk]
      · simp [h]
    next => split <;> exact Nat.le_refl _

theorem ways_edge (p : Stage) (e : Edge) (id : Int) :
    (p.edge e).known.ways id ≤ p.known.ways id := by
  cases e with
  | contains outV inVs =>
    simp only [edge]
    split
    next => exact Nat.le_refl _
    next document _ => exact ways_claims document inVs p id
  | next outV inV => exact ways_next p outV inV id
  | bucket kind outV inV =>
    simp only [edge, bucket]
    split <;> exact Nat.le_of_eq (Known.ways_learnKind p.known inV kind id)
  | item outV inVs inV property =>
    refine Nat.le_of_eq (congrArg (fun k => Known.ways k id) ?_)
    exact (items_known outV property (Edge.itemTargets inVs inV) p).2
  | other => exact Nat.le_refl _
  | _ =>
    simp only [edge]
    split <;> exact Nat.le_refl _

theorem ways_line (p : Stage) (bytes : List UInt8) (id : Int) :
    (p.line bytes).known.ways id ≤
      p.known.ways id + ((vertexOfLine? bytes).any (Vertex.declares id)).toNat := by
  rcases p.line_cases bytes with ⟨e, -, hline⟩ | ⟨v, hv, hline⟩ | ⟨-, _, _, hline⟩
  · rw [hline]
    exact Nat.le_trans (ways_edge p.atEdge e id) (Nat.le_add_right _ _)
  · rw [hline, hv]
    exact ways_vertex p.atVertex v id
  · rw [hline]
    exact Nat.le_add_right _ _

theorem ways_lines (lines : List (List UInt8)) (p : Stage) (id : Int) :
    (lines.foldl Stage.line p).known.ways id ≤ p.known.ways id + declarationsOf id lines := by
  induction lines generalizing p with
  | nil => exact Nat.le_refl _
  | cons bytes rest ih =>
    have hline := ways_line p bytes id
    have hrest := ih (p.line bytes)
    unfold declarationsOf at hrest ⊢
    rw [List.foldl_cons, List.countP_cons]
    cases hv : (vertexOfLine? bytes).any (Vertex.declares id) with
    | false =>
      rw [hv, Bool.toNat_false] at hline
      simp only [Bool.false_eq_true, if_false]
      omega
    | true =>
      rw [hv, Bool.toNat_true] at hline
      simp only [if_true]
      omega

/-- A `next` edge that is neither dangling nor ignored links a range, the one that waits if there
is one. -/
theorem next_cases {outV inV : Int}
    (hd : (p.next outV inV).danglingCount = p.danglingCount)
    (hi : (p.next outV inV).ingestion.report.ignoredRecords = p.ingestion.report.ignoredRecords) :
    ∃ row, p.known.resultSets.get? inV = some row ∧
      ((∃ range, p.known.unclaimed.get? outV = some range ∧
        (p.next outV inV).known =
          { p.known with
            unclaimed := p.known.unclaimed.insert outV { range with resultSet := some row } }) ∨
      p.known.unclaimed.get? outV = none ∧ ∃ range, p.known.claimed.get? outV = some range ∧
        (p.next outV inV).known =
          { p.known with
            claimed := p.known.claimed.insert outV { range with resultSet := some row } }) := by
  unfold next at hd hi ⊢
  cases hr : p.known.resultSets.get? inV with
  | none =>
    simp only [hr, danglingCount, dangling, Ingestion.dangling] at hd
    omega
  | some row =>
    refine ⟨row, rfl, ?_⟩
    cases hu : p.known.unclaimed.get? outV with
    | some range => exact .inl ⟨range, rfl, rfl⟩
    | none =>
      cases hc : p.known.claimed.get? outV with
      | some range => exact .inr ⟨rfl, range, rfl, rfl⟩
      | none =>
        simp only [hr, hu, hc] at hd hi
        split at hd
        next hown =>
          simp only [hown, if_true, ignored, Ingestion.ignored] at hi
          omega
        next =>
          simp only [danglingCount, dangling, Ingestion.dangling] at hd
          omega

/-- After a `next` edge that links a range, its id leads to the result set of the edge exactly if
it leads to no other one. -/
theorem resultSetOf?_next {outV inV : Int}
    (hd : (p.next outV inV).danglingCount = p.danglingCount)
    (hi : (p.next outV inV).ingestion.report.ignoredRecords = p.ingestion.report.ignoredRecords) :
    ∃ row, p.known.resultSets.get? inV = some row ∧
      (p.known.unclaimed.has outV = true ∨ p.known.claimed.has outV = true) ∧
      ((p.next outV inV).known.resultSetOf? outV = some row ↔ p.known.LeadsOnlyTo outV row) := by
  obtain ⟨row, hr, ⟨waiting, hu, hk⟩ | ⟨hu, range, hc, hk⟩⟩ := next_cases hd hi
  · refine ⟨row, hr, .inl (by simp [IdMap.has, hu]), ?_⟩
    rw [hk]
    unfold Known.resultSetOf?
    simp only [IdMap.get?_insert_self, Option.bind_some]
    cases hs : p.known.resultSets.get? outV with
    | some own =>
      rw [Option.some.injEq]
      exact (Known.leadsOnlyTo_iff_own hs).symm
    | none =>
      cases hc : p.known.claimed.get? outV with
      | some range =>
        refine ⟨fun he => ⟨fun own ho => ?_, fun _ _ range' _ hc' => ?_⟩,
          fun hl => hl.claimed hs waiting range hu hc⟩
        · simp [hs] at ho
        · exact Option.some.inj (hc'.symm.trans hc) ▸ he
      | none => exact iff_of_true rfl (Known.leadsOnlyTo_of_one_range hs (.inr hc))
  · refine ⟨row, hr, .inr (by simp [IdMap.has, hc]), ?_⟩
    rw [hk]
    unfold Known.resultSetOf?
    simp only [IdMap.get?_insert_self]
    cases hs : p.known.resultSets.get? outV with
    | some own =>
      rw [Option.some.injEq]
      exact (Known.leadsOnlyTo_iff_own hs).symm
    | none => exact iff_of_true rfl (Known.leadsOnlyTo_of_one_range hs (.inl hu))

end Stage

/-- Edges from an id that need a result set write to the given one. -/
structure Ingestion.WritesTo (g : Ingestion) (access : Access) (s : Store) (id row : Int) :
    Prop where
  bucket : ∀ kind bucket g' t, g.edge (.bucket kind id bucket) access s = (.ok g', t) →
    t.Holds ⟨.bucket kind, row, bucket⟩
  hover : ∀ inV hover, g.known.hovers.get? inV = some hover → ∀ g' t,
    g.edge (.hover id inV) access s = (.ok g', t) → t.Holds ⟨.hover, row, hover⟩
  moniker : ∀ inV moniker, g.known.monikers.get? inV = some moniker → ∀ g' t,
    g.edge (.moniker id inV) access s = (.ok g', t) → t.Holds ⟨.moniker, row, moniker⟩

theorem Ingestion.writesTo_of_resultSet {base : Store} {g : Ingestion} {s : Store}
    (h : Stage.Grounded base ⟨g, s⟩) (access : Access) {id row : Int}
    (hr : g.known.resultSetOf? id = some row) : g.WritesTo access s id row := by
  have written : ∀ e l g' t, Stage.linkOf? ⟨g, s⟩ e = some l →
      g.edge e access s = (.ok g', t) → t.Holds l := by
    intro e l g' t hl hedge
    have hholds := h.link_written hl
    rw [Ingestion.edge_stage hedge] at hholds
    exact hholds
  refine ⟨fun kind bucket g' t => written _ _ g' t ?_, fun inV hover hh g' t => written _ _ g' t ?_,
    fun inV moniker hm g' t => written _ _ g' t ?_⟩
  · simp only [Stage.linkOf?, Stage.known, hr, joined?]
  · simp only [Stage.linkOf?, Stage.known, hr, hh, joined?]
  · simp only [Stage.linkOf?, Stage.known, hr, hm, joined?]

section Ingest

variable {access : Access} {s u v : Store} {about : RunMeta} {g g' : Ingestion}

/-- A `next` edge that is applied gives its id the result set that it names, and the edges from
that id write to it, exactly if the id leads to no other one.  That is so whenever the lines before
declare the id once. -/
theorem next_leads_to_result_set {before : List (List UInt8)} {bytes : List UInt8} {number : Nat}
    {outV inV : Int} (h : Reachable s) (hb : takeLines about access s before = (.ok g, u))
    (he : edgeOfLine? bytes = some (.next outV inV))
    (hn : g.line number bytes { access with inTransaction := true } u = (.ok g', v))
    (hd : g'.report.danglingReferences = g.report.danglingReferences)
    (hi : g'.report.ignoredRecords = g.report.ignoredRecords) :
    ∃ row, g.known.resultSets.get? inV = some row ∧
      (g'.known.resultSetOf? outV = some row ↔ g.known.LeadsOnlyTo outV row) ∧
      (declarationsOf outV before ≤ 1 → g'.known.resultSetOf? outV = some row) ∧
      (g'.known.resultSetOf? outV = some row →
        ∀ access', g'.WritesTo access' v outV row) := by
  have hstage : stageAfter about access s before = ⟨g, u⟩ := Ingestion.lines_stage hb
  have hbefore := grounded_stageAfter h.scoped about access before
  rw [hstage] at hbefore
  have hline : Stage.line ⟨g, u⟩ bytes = ⟨g', v⟩ := Ingestion.line_stage hn
  have hafter := (Stage.grounded_kept _).line bytes hbefore
  rw [hline] at hafter
  have hnext : (Stage.atEdge ⟨g, u⟩).next outV inV = ⟨g', v⟩ :=
    (Stage.line_edge he _).symm.trans hline
  have hcount : ((Stage.atEdge ⟨g, u⟩).next outV inV).danglingCount =
      (Stage.atEdge ⟨g, u⟩).danglingCount := by
    rw [hnext]
    exact hd
  have hignored : ((Stage.atEdge ⟨g, u⟩).next outV inV).ingestion.report.ignoredRecords =
      (Stage.atEdge ⟨g, u⟩).ingestion.report.ignoredRecords := by
    rw [hnext]
    exact hi
  obtain ⟨row, hr, hrange, hiff⟩ := Stage.resultSetOf?_next hcount hignored
  rw [hnext] at hiff
  refine ⟨row, hr, hiff, fun honce => hiff.mpr (Known.leadsOnlyTo_of_ways ?_ hrange),
    fun hleads access' => Ingestion.writesTo_of_resultSet hafter access' hleads⟩
  have hways := Stage.ways_lines before
    ⟨.start (s.runs.last + 1), s.withRun about (about.createdAt.getD access.clock)⟩ outV
  have hstart : Known.ways {} outV = 0 := rfl
  change (stageAfter about access s before).known.ways outV ≤ Known.ways {} outV + _ at hways
  rw [hstage, hstart, Nat.zero_add] at hways
  exact Nat.le_trans hways honce

end Ingest

theorem takeLines_last (about : RunMeta) (access : Access) (s : Store)
    (before : List (List UInt8)) (bytes : List UInt8)
    (h : (takeLines about access s (before ++ [bytes])).1.isOk = true) :
    ∃ g u g' v, takeLines about access s before = (.ok g, u) ∧
      g.line (1 + before.length) bytes { access with inTransaction := true } u = (.ok g', v) ∧
      stageAfter about access s before = ⟨g, u⟩ ∧
      (stageAfter about access s before).line bytes = ⟨g', v⟩ := by
  cases ht : takeLines about access s (before ++ [bytes]) with
  | mk result v =>
    rw [ht] at h
    cases result with
    | error e => cases h
    | ok g' =>
      obtain ⟨g, u, hb, ha⟩ := Ingestion.lines_append_ok_iff.mp ht
      obtain ⟨g₁, v₁, hline, hend⟩ := Action.bind_ok_iff.mp ha
      obtain ⟨rfl, rfl⟩ := Action.pure_ok_iff.mp hend
      have hstage : stageAfter about access s before = ⟨g, u⟩ := Ingestion.lines_stage hb
      refine ⟨g, u, g₁, v₁, hb, hline, hstage, ?_⟩
      rw [hstage]
      exact Ingestion.line_stage hline

/-- A document with a range, and a result set. -/
def rangeLines : List (List UInt8) :=
  ["[\"vertex\",\"document\",1,\"a\",null]", "[\"vertex\",\"range\",2,[0,4],[0,7]]",
    "[\"vertex\",\"resultSet\",3]", "[\"edge\",\"contains\",1,[2]]"].map
    fun line => line.toUTF8.toList

def nextLine : List UInt8 := "[\"edge\",\"next\",2,3]".toUTF8.toList

/-- A range that is declared once leads to the result set of its `next` edge. -/
theorem range_leads_to_result_set :
    declarationsOf 2 rangeLines = 1 ∧
      ((stageAfter {} {} .empty rangeLines).line nextLine).known.resultSetOf? 2 = some 1 := by
  have honce : declarationsOf 2 rangeLines = 1 := by decide +kernel
  obtain ⟨g, u, g', v, hb, hline, hstage, hnext⟩ :=
    takeLines_last {} {} .empty rangeLines nextLine (by decide +kernel)
  have hd : ((stageAfter {} {} .empty rangeLines).line nextLine).danglingCount =
      (stageAfter {} {} .empty rangeLines).danglingCount := by decide +kernel
  have hi : ((stageAfter {} {} .empty rangeLines).line nextLine).ingestion.report.ignoredRecords =
      (stageAfter {} {} .empty rangeLines).ingestion.report.ignoredRecords := by decide +kernel
  have hrow : (stageAfter {} {} .empty rangeLines).known.resultSets.get? 3 = some 1 := by
    decide +kernel
  rw [hnext, hstage] at hd hi
  rw [hstage] at hrow
  have hedge : edgeOfLine? nextLine = some (.next 2 3) := by decide +kernel
  obtain ⟨row, hr, -, hleads, -⟩ := next_leads_to_result_set .empty hb hedge hline hd hi
  rw [hnext, ← hrow, hr]
  exact ⟨honce, hleads (Nat.le_of_eq honce)⟩

/-- The range is declared once more after it was claimed. -/
def rangeLinesAgain : List (List UInt8) :=
  rangeLines ++ ["[\"vertex\",\"range\",2,[0,4],[0,7]]".toUTF8.toList]

/-- An id that is declared again after its range was claimed leads nowhere, although its `next`
edge is applied: the edge links the range that waits, and the one that was claimed is found. -/
theorem range_declared_again_leads_nowhere :
    ¬ ∀ (before : List (List UInt8)) (bytes : List UInt8) (number : Nat) (outV inV : Int)
        (g g' : Ingestion) (u v : Store),
      takeLines {} {} .empty before = (.ok g, u) →
      edgeOfLine? bytes = some (.next outV inV) →
      g.line number bytes { inTransaction := true } u = (.ok g', v) →
      g'.report.danglingReferences = g.report.danglingReferences →
      g'.report.ignoredRecords = g.report.ignoredRecords →
      g'.known.resultSetOf? outV = g'.known.resultSets.get? inV := by
  intro claim
  obtain ⟨g, u, g', v, hb, hline, hstage, hnext⟩ :=
    takeLines_last {} {} .empty rangeLinesAgain nextLine (by decide +kernel)
  have hd : ((stageAfter {} {} .empty rangeLinesAgain).line nextLine).danglingCount =
      (stageAfter {} {} .empty rangeLinesAgain).danglingCount := by decide +kernel
  have hi : ((stageAfter {} {} .empty rangeLinesAgain).line
      nextLine).ingestion.report.ignoredRecords =
        (stageAfter {} {} .empty rangeLinesAgain).ingestion.report.ignoredRecords := by
    decide +kernel
  have hfound : ((stageAfter {} {} .empty rangeLinesAgain).line
      nextLine).known.resultSetOf? 2 = none := by decide +kernel
  have hrow : ((stageAfter {} {} .empty rangeLinesAgain).line
      nextLine).known.resultSets.get? 3 = some 1 := by decide +kernel
  rw [hnext, hstage] at hd hi
  rw [hnext] at hfound hrow
  have hsame := claim _ _ _ 2 3 g g' u v hb (by decide +kernel) hline hd hi
  rw [hfound, hrow] at hsame
  cases hsame

end SymbolAtlas
