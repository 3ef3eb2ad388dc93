import SymbolAtlas.Proofs.Atomicity
import SymbolAtlas.Proofs.Lockstep

namespace SymbolAtlas

/-- The edge that stands on a line. -/
def edgeOfLine? (bytes : List UInt8) : Option Edge :=
  match Element.ofLine? (trimLine bytes) with
  | some (.edge e) => some e
  | _ => none

/-- What is known after an edge that was skipped. -/
def Known.afterSkipped (k : Known) : Edge → Known
  | .bucket kind _ inV => k.learnKind inV kind
  | _ => k

namespace Stage

variable {p : Stage}

abbrev danglingCount (p : Stage) : Nat := p.ingestion.report.danglingReferences

/-- The record on a line is counted as dangling and writes nothing. -/
def Skips (p : Stage) (bytes : List UInt8) : Prop :=
  (p.line bytes).store = p.store ∧ p.danglingCount < (p.line bytes).danglingCount

instance (p : Stage) (bytes : List UInt8) : Decidable (p.Skips bytes) :=
  inferInstanceAs (Decidable (_ ∧ _))

theorem last_claims (document : Int) (ids : List Int) (p : Stage) :
    p.store.ranges.last ≤ (ids.foldl (claim document) p).store.ranges.last := by
  refine List.foldlRecOn (motive := fun q : Stage => p.store.ranges.last ≤ q.store.ranges.last)
    ids (claim document) (Int.le_refl _) fun q hq id _ => ?_
  unfold claim
  split
  next => exact hq
  next =>
    change p.store.ranges.last ≤ q.store.ranges.last + 1
    omega

theorem claims_known {document : Int} {ids : List Int}
    (h : (ids.foldl (claim document) p).store = p.store) :
    (ids.foldl (claim document) p).run = p.run ∧
      (ids.foldl (claim document) p).known = p.known := by
  induction ids generalizing p with
  | nil => exact ⟨rfl, rfl⟩
  | cons id rest ih =>
    rw [List.foldl_cons] at h ⊢
    cases hu : p.known.unclaimed.get? id with
    | none =>
      have hc : claim document p id = p.dangling := by simp only [claim, hu]
      rw [hc] at h ⊢
      exact ih h
    | some range =>
      have hlast := last_claims document rest (claim document p id)
      have hc : (claim document p id).store.ranges.last = p.store.ranges.last + 1 := by
        simp only [claim, hu]
        rfl
      rw [h] at hlast
      omega

theorem items_known (bucket : Int) (property : Option String) (ids : List Int) (p : Stage) :
    (ids.foldl (item bucket property) p).run = p.run ∧
      (ids.foldl (item bucket property) p).known = p.known := by
  refine List.foldlRecOn (motive := fun q : Stage => q.run = p.run ∧ q.known = p.known) ids
    (item bucket property) ⟨rfl, rfl⟩ fun q hq id _ => ?_
  unfold item
  split <;> exact hq

/-- Of all edges, only bucket edges leave something behind if they are skipped. -/
theorem skipped_known {e : Edge} (hs : (p.edge e).store = p.store)
    (hd : p.danglingCount < (p.edge e).danglingCount) :
    (p.edge e).run = p.run ∧ (p.edge e).known = p.known.afterSkipped e := by
  have counted : ∀ {q : Stage}, p.danglingCount < q.danglingCount →
      q.danglingCount = p.danglingCount → False := fun hlt he => by omega
  revert hs hd
  cases e with
  | contains outV inVs =>
    simp only [edge]
    split
    next => exact fun _ _ => ⟨rfl, rfl⟩
    next => exact fun hs _ => claims_known hs
  | next outV inV =>
    simp only [edge, next]
    split
    next => exact fun _ _ => ⟨rfl, rfl⟩
    next =>
      split
      next => exact fun _ hd => (counted hd rfl).elim
      next => exact fun _ hd => (counted hd rfl).elim
      next =>
        split
        next => exact fun _ hd => (counted hd rfl).elim
        next => exact fun _ _ => ⟨rfl, rfl⟩
  | moniker outV inV =>
    simp only [edge]
    split
    next => exact fun _ hd => (counted hd rfl).elim
    next => exact fun _ _ => ⟨rfl, rfl⟩
  | packageInformation outV inV =>
    simp only [edge]
    split
    next => exact fun _ hd => (counted hd rfl).elim
    next => exact fun _ _ => ⟨rfl, rfl⟩
  | bucket kind outV inV =>
    simp only [edge, bucket]
    split
    next => exact fun _ _ => ⟨rfl, rfl⟩
    next => exact fun _ hd => (counted hd rfl).elim
  | hover outV inV =>
    simp only [edge]
    split
    next => exact fun _ hd => (counted hd rfl).elim
    next => exact fun _ _ => ⟨rfl, rfl⟩
  | item outV inVs inV property =>
    exact fun _ _ => items_known outV property _ p
  | other => exact fun _ hd => (counted hd rfl).elim

theorem line_edge {bytes : List UInt8} {e : Edge} (he : edgeOfLine? bytes = some e) (p : Stage) :
    p.line bytes = ((p.counting fun r => { r with lines := r.lines + 1 }).counting fun r =>
      { r with edges := r.edges + 1 }).edge e := by
  unfold edgeOfLine? at he
  split at he
  next decoded =>
    cases he
    unfold line
    split
    next ht =>
      rw [ht] at decoded
      cases decoded
    next => simp only [decoded, element]
  next => cases he

theorem Skips.known {bytes : List UInt8} {e : Edge} (hs : p.Skips bytes)
    (he : edgeOfLine? bytes = some e) :
    (p.line bytes).run = p.run ∧ (p.line bytes).known = p.known.afterSkipped e := by
  obtain ⟨hstore, hcount⟩ := hs
  rw [line_edge he] at hstore hcount ⊢
  exact skipped_known hstore hcount

end Stage

/-- The lines of a dump, taken as a new run inside a transaction. -/
def takeLines (about : RunMeta) (access : Access) (s : Store) (lines : List (List UInt8)) :
    Except IngestError Ingestion × Store :=
  (Ingestion.start (s.runs.last + 1)).lines 1 lines { access with inTransaction := true }
    (s.withRun about (about.createdAt.getD access.clock))

/-- The stage that an ingest has reached after some lines. -/
def stageAfter (about : RunMeta) (access : Access) (s : Store) (lines : List (List UInt8)) :
    Stage :=
  lines.foldl Stage.line
    ⟨.start (s.runs.last + 1), s.withRun about (about.createdAt.getD access.clock)⟩

section Ingest

variable {access : Access} {s t : Store} {settings : IngestSettings} {about : RunMeta}
  {stream stream' : ByteStream} {report : Report}

theorem ingestGraph_ok_iff :
    ingestGraph about stream access s = (.ok report, t) ↔
      access.beginRefusal? true = none ∧
        Access.Allows { access with inTransaction := true } s [(.runs, .insert)] ∧
        (∃ g, takeLines about access s stream.lines = (.ok g, t) ∧ g.closingReport = report) ∧
        stream.failure = none ∧ access.commitFails t = none := by
  constructor
  · intro h
    obtain ⟨hb, h, hc⟩ := Action.transaction_ok_iff.mp h
    obtain ⟨run, u, hr, h⟩ := Action.bind_ok_iff.mp h
    obtain ⟨ha, rfl, rfl⟩ := addRun_ok_iff.mp (Action.mapError_ok_iff.mp hr)
    obtain ⟨g, v, hs, hp⟩ := Action.bind_ok_iff.mp h
    obtain ⟨rfl, rfl⟩ := Action.pure_ok_iff.mp hp
    obtain ⟨last, w, hlines, hend⟩ := Action.bind_ok_iff.mp hs
    cases hfail : stream.failure with
    | some message =>
      simp only [hfail] at hend
      simp [Action.fail] at hend
    | none =>
      simp only [hfail] at hend
      obtain ⟨rfl, rfl⟩ := Action.pure_ok_iff.mp hend
      exact ⟨hb, ha, ⟨last, hlines, rfl⟩, rfl, hc⟩
  · rintro ⟨hb, ha, ⟨g, hlines, rfl⟩, hf, hc⟩
    have hstream : (Ingestion.start (s.runs.last + 1)).stream stream
        { access with inTransaction := true }
        (s.withRun about (about.createdAt.getD access.clock)) = (.ok g, t) := by
      refine Action.bind_ok_iff.mpr ⟨g, t, hlines, ?_⟩
      simp only [hf]
      rfl
    refine Action.transaction_ok_iff.mpr ⟨hb, ?_, hc⟩
    refine Action.bind_ok_iff.mpr ⟨_, _, Action.mapError_ok_iff.mpr ?_,
      Action.bind_ok_iff.mpr ⟨g, t, hstream, rfl⟩⟩
    exact addRun_ok_iff.mpr ⟨ha, rfl, rfl⟩

theorem ingestGraph_of_lines (hf : stream'.failure = none)
    (hl : ∀ g u, takeLines about access s stream.lines = (.ok g, u) →
      ∃ g', takeLines about access s stream'.lines = (.ok g', u))
    (h : ingestGraph about stream access s = (.ok report, t)) :
    ∃ report', ingestGraph about stream' access s = (.ok report', t) := by
  obtain ⟨hb, ha, ⟨g, hlines, -⟩, -, hc⟩ := ingestGraph_ok_iff.mp h
  obtain ⟨g', hg'⟩ := hl g t hlines
  exact ⟨g'.closingReport, ingestGraph_ok_iff.mpr ⟨hb, ha, ⟨g', hg', rfl⟩, hf, hc⟩⟩

theorem ingest_of_lines (hf : stream'.failure = none)
    (hl : ∀ g u, takeLines about access s stream.lines = (.ok g, u) →
      ∃ g', takeLines about access s stream'.lines = (.ok g', u))
    (hi : ingest settings about stream access s = (.ok report, t)) :
    ∃ report', ingest settings about stream' access s = (.ok report', t) := by
  cases hg : ingestGraph about stream access s with
  | mk result mid =>
    cases result with
    | error e =>
      have he : (ingest settings about stream access s).1 = .error e :=
        ingest_error_iff.mpr (congrArg Prod.fst hg)
      simp [hi] at he
    | ok stored =>
      obtain ⟨stored', hg'⟩ := ingestGraph_of_lines hf hl hg
      -- Both derive the occurrences of the same run in the same store.
      have hrun : stored'.run = stored.run :=
        (closing_report_awaits hg').1.trans (closing_report_awaits hg).1.symm
      rw [ingest_of_graph hg] at hi
      rw [ingest_of_graph hg', hrun]
      split at hi
      next hd =>
        rw [if_pos hd]
        split at hi
        next =>
          cases hi
          exact ⟨_, rfl⟩
        next =>
          cases hi
          exact ⟨_, rfl⟩
      next hd =>
        cases hi
        exact ⟨stored', by rw [if_neg hd]⟩

/-- How the lines of a dump lead past an edge that is skipped. -/
theorem takeLines_past {before after : List (List UInt8)} {bytes : List UInt8} {e : Edge}
    {g : Ingestion} (hskip : (stageAfter about access s before).Skips bytes)
    (he : edgeOfLine? bytes = some e)
    (h : takeLines about access s (before ++ bytes :: after) = (.ok g, t)) :
    ∃ (g₀ : Ingestion) (u : Store) (g₁ : Ingestion),
      takeLines about access s before = (.ok g₀, u) ∧
      stageAfter about access s before = ⟨g₀, u⟩ ∧ g₁.run = g₀.run ∧
      g₁.known = g₀.known.afterSkipped e ∧
      g₁.lines (1 + before.length + 1) after { access with inTransaction := true } u =
        (.ok g, t) := by
  obtain ⟨g₀, u₀, hb, h⟩ := Ingestion.lines_append_ok_iff.mp h
  obtain ⟨g₁, u₁, hline, ha⟩ := Action.bind_ok_iff.mp h
  have hstage : stageAfter about access s before = ⟨g₀, u₀⟩ := Ingestion.lines_stage hb
  have hnext := Ingestion.line_stage hline
  rw [hstage] at hskip
  obtain ⟨hrun, hknown⟩ := hskip.known he
  have hstore := hskip.1
  rw [hnext] at hrun hknown hstore
  cases hstore
  exact ⟨g₀, u₀, g₁, hb, hstage, hrun, hknown, ha⟩

theorem takeLines_resume {off : Int → Prop} {before after : List (List UInt8)}
    {g₀ g₁ g : Ingestion} {u : Store} {number : Nat}
    (hb : takeLines about access s before = (.ok g₀, u)) (hbeside : Ingestion.Beside off g₁ g₀)
    (hn : ∀ bytes ∈ after, ∀ bucket, bucketOfLine? bytes = some bucket → ¬ off bucket)
    (ha : g₁.lines number after { access with inTransaction := true } u = (.ok g, t)) :
    ∃ g', takeLines about access s (before ++ after) = (.ok g', t) := by
  obtain ⟨g', hg', -⟩ :=
    Ingestion.lines_follow hbeside number (1 + before.length) hn _ _ _ _ ha
  exact ⟨g', Ingestion.lines_append_ok_iff.mpr ⟨g₀, u, hb, hg'⟩⟩

theorem takeLines_declaring {before : List (List UInt8)} {bytes : List UInt8} {kind : BucketKind}
    {id : Int} {g : Ingestion} (hb : takeLines about access s before = (.ok g, t))
    (hv : Element.ofLine? (trimLine bytes) = some (.vertex (.bucket kind id))) :
    ∃ g', takeLines about access s (before ++ [bytes]) = (.ok g', t) ∧ g'.run = g.run ∧
      g'.known = g.known.learnKind id kind := by
  have hline : ∃ g', g.line (1 + before.length) bytes { access with inTransaction := true } t =
      (.ok g', t) ∧ g'.run = g.run ∧ g'.known = g.known.learnKind id kind := by
    unfold Ingestion.line
    cases ht : trimLine bytes with
    | nil =>
      rw [ht] at hv
      cases hv
    | cons first rest =>
      rw [ht] at hv
      simp only [hv]
      exact ⟨_, rfl, rfl, rfl⟩
  obtain ⟨g', hg', hrun, hknown⟩ := hline
  refine ⟨g', Ingestion.lines_append_ok_iff.mpr ⟨g, t, hb, ?_⟩, hrun, hknown⟩
  exact Action.bind_ok_iff.mpr ⟨g', t, hg', rfl⟩

/-- Without an edge that was skipped a dump is stored as with it, unless it is a bucket edge whose
bucket is not known yet and gets ranges later.  In place of a bucket edge that was skipped, the
declaration of its bucket does the same. -/
theorem skipped_edge_leaves_kind {before after : List (List UInt8)} {bytes : List UInt8} {e : Edge}
    (hi : ingest settings about stream access s = (.ok report, t))
    (hlines : stream.lines = before ++ bytes :: after)
    (he : edgeOfLine? bytes = some e)
    (hskip : (stageAfter about access s before).Skips bytes) :
    (∀ without : ByteStream, without.failure = none → without.lines = before ++ after →
      (∀ kind outV inV, e = .bucket kind outV inV →
        ((stageAfter about access s before).known.kindOf? inV).isSome = true ∨
          ∀ line ∈ after, bucketOfLine? line ≠ some inV) →
      ∃ report', ingest settings about without access s = (.ok report', t)) ∧
    ∀ kind outV inV, e = .bucket kind outV inV → ∀ declaring : ByteStream,
      declaring.failure = none → ∀ declaration,
      declaring.lines = before ++ declaration :: after →
      Element.ofLine? (trimLine declaration) = some (.vertex (.bucket kind inV)) →
      ∃ report', ingest settings about declaring access s = (.ok report', t) := by
  refine ⟨fun without hf hw hkind => ?_, fun kind outV inV hbucket declaring hf line hw hv => ?_⟩
  · refine ingest_of_lines hf (fun g u hg => ?_) hi
    rw [hlines] at hg
    obtain ⟨g₀, v, g₁, hb, hstage, hrun, hknown, ha⟩ := takeLines_past hskip he hg
    rw [hstage] at hkind
    rw [hw]
    have same (hk : g₁.known = g₀.known) :
        ∃ g', takeLines about access s (before ++ after) = (.ok g', u) := by
      have hbeside : Ingestion.Beside (fun _ => False) g₁ g₀ := ⟨hrun.symm, hk ▸ .refl _ _⟩
      exact takeLines_resume hb hbeside (fun _ _ _ _ => id) ha
    cases e with
    | bucket kind outV inV =>
      rcases hkind kind outV inV rfl with hold | hunused
      · exact same (hknown.trans (Known.learnKind_of_known hold kind))
      · have hbeside : Ingestion.Beside (· = inV) g₁ g₀ := by
          refine ⟨hrun.symm, ?_⟩
          rw [hknown]
          exact Known.agreesOff_learnKind g₀.known inV kind
        refine takeLines_resume hb hbeside (fun line hl bucket hline he => ?_) ha
        exact hunused line hl (he ▸ hline)
    | _ => exact same hknown
  · subst hbucket
    refine ingest_of_lines hf (fun g u hg => ?_) hi
    rw [hlines] at hg
    obtain ⟨g₀, v, g₁, hb, -, hrun, hknown, ha⟩ := takeLines_past hskip he hg
    obtain ⟨g₂, hb₂, hrun₂, hknown₂⟩ := takeLines_declaring hb hv
    have hbeside : Ingestion.Beside (fun _ => False) g₁ g₂ := by
      refine ⟨hrun₂.trans hrun.symm, ?_⟩
      rw [hknown₂, hknown]
      exact .refl _ _
    rw [hw, List.append_cons]
    exact takeLines_resume hb₂ hbeside (fun _ _ _ _ => id) ha

end Ingest

/-- The stream with the given lines. -/
def ByteStream.ofLines (lines : List (List UInt8)) : ByteStream where
  content := lines.flatMap fun line => line ++ [10]

theorem cutLines_line {line : List UInt8} (h : 10 ∉ line) (rest : List UInt8) :
    cutLines (line ++ 10 :: rest) = (line :: (cutLines rest).1, (cutLines rest).2) := by
  induction line with
  | nil => rfl
  | cons b line ih =>
    obtain ⟨hb, hline⟩ := not_or.mp (List.mem_cons.not.mp h)
    rw [List.cons_append, cutLines, ih hline]
    exact if_neg (Ne.symm hb)

theorem cutLines_ofLines {lines : List (List UInt8)} (h : ∀ line ∈ lines, 10 ∉ line) :
    cutLines (ByteStream.ofLines lines).content = (lines, []) := by
  induction lines with
  | nil => rfl
  | cons line rest ih =>
    have hrest := ih fun other ho => h other (List.mem_cons_of_mem _ ho)
    have hsplit : (ByteStream.ofLines (line :: rest)).content =
        line ++ 10 :: (ByteStream.ofLines rest).content := by simp [ByteStream.ofLines]
    rw [hsplit, cutLines_line (h line List.mem_cons_self), hrest]

theorem ByteStream.lines_of_cut {stream : ByteStream} {lines : List (List UInt8)}
    (h : cutLines stream.content = (lines, [])) : stream.lines = lines := by
  unfold ByteStream.lines
  rw [h]
  rfl

theorem ByteStream.lines_ofLines {lines : List (List UInt8)} (h : ∀ line ∈ lines, 10 ∉ line) :
    (ofLines lines).lines = lines := lines_of_cut (cutLines_ofLines h)

/-- A document that claims a range. -/
def claimLines : List (List UInt8) :=
  ["[\"vertex\",\"document\",1,\"a\",null]", "[\"vertex\",\"range\",2,[0,0],[0,3]]",
    "[\"edge\",\"contains\",1,[2]]"].map fun line => line.toUTF8.toList

/-- Puts the range into a bucket. -/
def itemLine : List UInt8 := "[\"edge\",\"item\",6,[2],null,null]".toUTF8.toList

def hoverLine : List UInt8 := "[\"edge\",\"textDocument/hover\",2,7]".toUTF8.toList

def definitionLine : List UInt8 := "[\"edge\",\"textDocument/definition\",9,6]".toUTF8.toList

/-- The document and the item, with some lines between them. -/
def itemDump (between : List (List UInt8)) : ByteStream :=
  .ofLines (claimLines ++ between ++ [itemLine])

theorem lines_itemDump {between : List (List UInt8)} (h : ∀ line ∈ between, 10 ∉ line) :
    (itemDump between).lines = claimLines ++ between ++ [itemLine] := by
  have hends : ∀ line ∈ claimLines ++ [itemLine], 10 ∉ line := by decide +kernel
  refine ByteStream.lines_ofLines fun line hl => ?_
  rcases List.mem_append.mp hl with hl | hl
  · rcases List.mem_append.mp hl with hl | hl
    · exact hends line (List.mem_append_left _ hl)
    · exact h line hl
  · exact hends line (List.mem_append_right _ hl)

def itemStore (definitions : Table Item) (references : Table ReferenceItem) : Store where
  runs := ⟨1, [(1, { repo := none, commit := none, createdAt := 0 })]⟩
  documents := ⟨1, [(1, ⟨1, "a", none⟩)]⟩
  ranges := ⟨1, [(1, ⟨1, .ofCoords 0 0 0 3, none⟩)]⟩
  definitionItems := definitions
  referenceItems := references

def itemReport (edges dangling : Nat) : Report where
  run := 1
  lines := edges + 2
  vertices := 2
  edges := edges
  danglingReferences := dangling
  derivation := some ⟨0, 0, 0, 0⟩

/-- A text that nothing has can be left out. -/
theorem hover_left_out :
    ∃ report, ingest {} {} (itemDump []) {} .empty =
      (.ok report, itemStore {} ⟨1, [(1, ⟨⟨1, 6, 1, 1⟩, false⟩)]⟩) := by
  have hi : ingest {} {} (itemDump [hoverLine]) {} .empty =
      (.ok (itemReport 3 1), itemStore {} ⟨1, [(1, ⟨⟨1, 6, 1, 1⟩, false⟩)]⟩) := by decide +kernel
  have hlines : (itemDump [hoverLine]).lines = claimLines ++ hoverLine :: [itemLine] :=
    lines_itemDump (by decide +kernel)
  have he : edgeOfLine? hoverLine = some (.hover 2 7) := by decide +kernel
  have hskip : (stageAfter {} {} .empty claimLines).Skips hoverLine := by decide +kernel
  have hwithout : (itemDump []).lines = claimLines ++ [itemLine] := lines_itemDump nofun
  exact (skipped_edge_leaves_kind hi hlines he hskip).1 (itemDump []) rfl hwithout nofun

/-- A bucket edge that is skipped makes a definition of what would be a reference without it. -/
theorem skipped_bucket_edge_moves_item :
    ¬ ∀ (stream without : ByteStream) (before after : List (List UInt8)) (bytes : List UInt8)
        (e : Edge) (report report' : Report) (t t' : Store),
      ingest {} {} stream {} .empty = (.ok report, t) →
      stream.lines = before ++ bytes :: after →
      edgeOfLine? bytes = some e →
      (stageAfter {} {} .empty before).Skips bytes →
      without.lines = before ++ after →
      ingest {} {} without {} .empty = (.ok report', t') →
      t'.definitionItems.rows = t.definitionItems.rows := by
  intro claim
  have hrows := claim (itemDump [definitionLine]) (itemDump []) claimLines [itemLine]
    definitionLine (.bucket .definitions 9 6) (itemReport 3 1) (itemReport 2 0)
    (itemStore ⟨1, [(1, ⟨1, 6, 1, 1⟩)]⟩ {}) (itemStore {} ⟨1, [(1, ⟨⟨1, 6, 1, 1⟩, false⟩)]⟩)
    (by decide +kernel) (lines_itemDump (by decide +kernel)) (by decide +kernel)
    (by decide +kernel) (lines_itemDump nofun) (by decide +kernel)
  cases hrows

end SymbolAtlas
