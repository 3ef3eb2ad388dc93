import SymbolAtlas.Proofs.RenamedDump

namespace SymbolAtlas

namespace Table

variable {α : Type}

/-- Changes the row that stands at a place of the list, whatever number it has. -/
def modifyAt (t : Table α) (index : Nat) (change : α → α) : Table α :=
  { t with rows := t.rows.modify index fun r => (r.1, change r.2) }

theorem has_modifyAt (t : Table α) (index : Nat) (change : α → α) (id : Int) :
    (t.modifyAt index change).has id = t.has id := by
  unfold has get? modifyAt
  dsimp only
  induction t.rows generalizing index with
  | nil => rw [List.modify_nil]
  | cons r rest ih =>
    obtain ⟨k, a⟩ := r
    cases index with
    | zero =>
      rw [List.modify_zero_cons, lookup_cons, lookup_cons]
      split <;> rfl
    | succ index =>
      rw [List.modify_succ_cons, lookup_cons, lookup_cons]
      split
      next => rfl
      next => exact ih index

theorem modifyAt_modify (t : Table α) (index : Nat) (id : Int) {change change' : α → α}
    (h : ∀ a, change (change' a) = change' (change a)) :
    (t.modify id change').modifyAt index change = (t.modifyAt index change).modify id change' := by
  unfold modify modifyAt
  dsimp only
  congr 1
  induction t.rows generalizing index with
  | nil => rw [List.map_nil, List.modify_nil, List.map_nil]
  | cons r rest ih =>
    cases index with
    | zero =>
      simp only [List.map_cons, List.modify_zero_cons, List.cons.injEq, and_true]
      split
      next => rw [h]
      next => rfl
    | succ index =>
      rw [List.map_cons, List.modify_succ_cons, List.modify_succ_cons, List.map_cons, ih]

theorem modifyAt_length (t : Table α) (change : α → α) :
    t.modifyAt t.rows.length change = t := by
  unfold modifyAt
  rw [List.modify_eq_self (Nat.le_refl _)]

theorem insert_modifyAt_length (t : Table α) (change : α → α) (row : α) :
    (t.insert row).modifyAt t.rows.length change = t.insert (change row) := by
  simp [insert, modifyAt, List.modify_eq_take_drop]

end Table

/-- The store with another time for the run that stands at a place of the list of runs. -/
def Store.retimed (s : Store) (index : Nat) (createdAt : Int) : Store :=
  { s with runs := s.runs.modifyAt index fun r => { r with createdAt := createdAt } }

/-- Nothing that stands in the way of writing depends on the times of runs. -/
structure Access.Timeless (access : Access) : Prop where
  fails : ∀ table event (s : Store) index createdAt,
    access.fails table event (s.retimed index createdAt) = access.fails table event s
  commitFails : ∀ (s : Store) index createdAt,
    access.commitFails (s.retimed index createdAt) = access.commitFails s

namespace StoreRenaming

/-- All buckets keep their numbers, and the run at the given place has another time. -/
def timed (run : Int) (index : Nat) (createdAt : Int) : StoreRenaming where
  run := run
  name := id
  injective := Function.injective_id
  runs t := t.modifyAt index fun r => { r with createdAt := createdAt }
  has_runs t := t.has_modifyAt index _
  describe_runs t number _ _ := t.modifyAt_modify index number fun _ => rfl

/-- The store as it is. -/
def same (run : Int) : StoreRenaming := ofBuckets run Function.injective_id

theorem store_renamed_id (s : Store) (run : Int) : s.renamed run id = s := by
  have hname : ∀ owner, bucketName run id owner = id := by
    intro owner
    unfold bucketName
    split <;> rfl
  have hset : ResultSet.renamed run id = id := by
    funext r
    simp [ResultSet.renamed, hname]
  have hitem : Item.renamed run id = id := by
    funext i
    simp [Item.renamed, hname]
  have hreference : ReferenceItem.renamed run id = id := by
    funext i
    simp [ReferenceItem.renamed, hitem]
  simp [Store.renamed, hset, hitem, hreference, Table.modifyAll]

theorem store_timed (run : Int) (index : Nat) (createdAt : Int) (s : Store) :
    (timed run index createdAt).store s = s.retimed index createdAt := by
  have hid := store_renamed_id s run
  simp only [store, timed, hid]
  rfl

theorem store_same (run : Int) (s : Store) : (same run).store s = s :=
  store_renamed_id s run

theorem keeps_of_id {c : StoreRenaming} (h : c.name = id) : c.Keeps (Stage.Awaits c.run) where
  kept := Stage.awaits_kept c.run
  run hp := hp.run
  owns _ _ r _ _ := by
    unfold bucketName
    rw [h]
    split <;> rfl

end StoreRenaming

theorem StoreRenaming.alike_same (access : Access) (clock run : Int) :
    access.Alike (same run).store { access with clock := clock } :=
  ⟨rfl, rfl, rfl, fun _ _ s => by rw [store_same], fun s => by rw [store_same]⟩

theorem Access.Timeless.alike {access : Access} (h : access.Timeless) (run : Int) (index : Nat)
    (createdAt clock : Int) :
    access.Alike (StoreRenaming.timed run index createdAt).store
      { access with clock := clock } where
  writable := rfl
  lockedOut := rfl
  inTransaction := rfl
  fails table event s := by
    rw [StoreRenaming.store_timed]
    exact h.fails table event s index createdAt
  commitFails s := by
    rw [StoreRenaming.store_timed]
    exact h.commitFails s index createdAt

theorem awaits_start (s : Store) (about : RunMeta) (createdAt : Int) :
    Stage.Awaits (s.runs.last + 1)
      ⟨.start (s.runs.last + 1), s.withRun about createdAt⟩ := ⟨rfl, rfl, rfl, rfl⟩

theorem renamedLine_id (bytes : List UInt8) : RenamedLine id bytes bytes where
  blank := Iff.rfl
  record := by
    have hid : Element.renamed id = id := funext Element.renamed_id
    rw [hid, Option.map_id_fun, id]

/-- Lines that say nothing, put before the lines of a stream, between them or after them, show in
the counts of the report and in the numbers of lines that errors give, and nowhere else.  The store
is the same, also if the clock shows another time, unless the time of the run is taken from it. -/
theorem noise_shows_in_counts_only (settings : IngestSettings) (about : RunMeta) (access : Access)
    (s : Store) {stream noisy : ByteStream} {extra : Nat → List (List UInt8)}
    (hl : noisy.lines = weave extra stream.lines) (hf : noisy.failure = stream.failure)
    (hn : ∀ k ≤ stream.lines.length, ∀ bytes ∈ extra k, (Noise.ofLine? bytes).isSome = true) :
    let plain := ingest settings about stream access s
    let result := (plain.1.map (·.withNoise (stream.noise extra))).mapError
      (.renumbered (shifted extra))
    ingest settings about noisy access s = (result, plain.2) ∧
    ∀ clock,
      (about.createdAt.isSome = true →
        ingest settings about noisy { access with clock := clock } s = (result, plain.2)) ∧
      (access.Timeless →
        ingest settings about noisy { access with clock := clock } s =
          (result, plain.2.retimed s.runs.rows.length (about.createdAt.getD clock))) := by
  intro plain result
  have ht : RenamedStream id extra stream noisy :=
    ⟨⟨stream.lines, List.forall₂_same.mpr fun bytes _ => renamedLine_id bytes, hl⟩, hn, hf⟩
  have hsame : ∀ clock, about.createdAt.getD access.clock = about.createdAt.getD clock →
      ingest settings about noisy { access with clock := clock } s = (result, plain.2) := by
    intro clock hclock
    have hc := ingest_carried (StoreRenaming.alike_same access clock (s.runs.last + 1))
      (StoreRenaming.keeps_of_id rfl) ht settings (StoreRenaming.store_same _ s)
      (by rw [StoreRenaming.store_same, hclock]) (awaits_start s about _)
    rwa [Action.Carried, StoreRenaming.store_same, StoreRenaming.store_same] at hc
  refine ⟨hsame access.clock rfl, fun clock => ⟨fun hsome => hsame clock ?_, fun htime => ?_⟩⟩
  · obtain ⟨createdAt, he⟩ := Option.isSome_iff_exists.mp hsome
    rw [he]
    rfl
  · -- The new run stands behind all that were there, so its time is the one that differs.
    let c := StoreRenaming.timed (s.runs.last + 1) s.runs.rows.length (about.createdAt.getD clock)
    have hs : c.store s = s := by
      rw [StoreRenaming.store_timed, Store.retimed, Table.modifyAt_length]
    have hrun : c.store (s.withRun about (about.createdAt.getD access.clock)) =
        s.withRun about (about.createdAt.getD clock) := by
      rw [StoreRenaming.store_timed]
      exact congrArg (fun runs => { s with runs := runs }) (Table.insert_modifyAt_length _ _ _)
    have hc := ingest_carried (htime.alike _ _ _ clock) (StoreRenaming.keeps_of_id (c := c) rfl) ht
      settings hs hrun (awaits_start s about _)
    rwa [Action.Carried, hs, StoreRenaming.store_timed] at hc

theorem not_mem_cutLines (bytes : List UInt8) :
    (∀ line ∈ (cutLines bytes).1, 10 ∉ line) ∧ 10 ∉ (cutLines bytes).2 := by
  induction bytes with
  | nil => exact ⟨by simp [cutLines], by simp [cutLines]⟩
  | cons b rest ih =>
    obtain ⟨hlines, htail⟩ := ih
    unfold cutLines
    cases hc : cutLines rest with
    | mk lines tail =>
      rw [hc] at hlines htail
      dsimp only at hlines htail ⊢
      split
      next => exact ⟨List.forall_mem_cons.mpr ⟨List.not_mem_nil, hlines⟩, htail⟩
      next hb =>
        have hne : (10 : UInt8) ≠ b := Ne.symm hb
        cases lines with
        | nil => exact ⟨hlines, List.mem_cons.not.mpr (not_or.mpr ⟨hne, htail⟩)⟩
        | cons line lines =>
          obtain ⟨hline, hrest⟩ := List.forall_mem_cons.mp hlines
          have hfirst : 10 ∉ b :: line := List.mem_cons.not.mpr (not_or.mpr ⟨hne, hline⟩)
          exact ⟨List.forall_mem_cons.mpr ⟨hfirst, hrest⟩, htail⟩

theorem not_mem_lines (stream : ByteStream) : ∀ line ∈ stream.lines, 10 ∉ line := by
  obtain ⟨hlines, htail⟩ := not_mem_cutLines stream.content
  unfold ByteStream.lines
  cases hc : cutLines stream.content with
  | mk lines tail =>
    rw [hc] at hlines htail
    dsimp only
    split
    next => exact hlines
    next => exact List.forall_mem_append.mpr ⟨hlines, List.forall_mem_singleton.mpr htail⟩

theorem forall_mem_weave {p : List UInt8 → Prop} {extra : Nat → List (List UInt8)}
    {lines : List (List UInt8)} (hl : ∀ line ∈ lines, p line)
    (he : ∀ k ≤ lines.length, ∀ line ∈ extra k, p line) : ∀ line ∈ weave extra lines, p line := by
  induction lines generalizing extra with
  | nil => exact he 0 (Nat.le_refl _)
  | cons line rest ih =>
    obtain ⟨hline, hrest⟩ := List.forall_mem_cons.mp hl
    refine List.forall_mem_append.mpr ⟨he 0 (Nat.zero_le _), List.forall_mem_cons.mpr ⟨hline, ?_⟩⟩
    exact ih hrest fun k hk => he (k + 1) (Nat.succ_le_succ hk)

theorem lines_woven (stream : ByteStream) {extra : Nat → List (List UInt8)}
    (h : ∀ k ≤ stream.lines.length, ∀ line ∈ extra k, 10 ∉ line) :
    ByteStream.lines { ByteStream.ofLines (weave extra stream.lines) with
      failure := stream.failure } = weave extra stream.lines :=
  ByteStream.lines_of_cut (cutLines_ofLines (forall_mem_weave (not_mem_lines stream) h))

/-- A blank line at the start, a byte that is no text before the last line, and at the end a vertex
with a label that has no meaning. -/
def sampleNoise : Nat → List (List UInt8)
  | 0 => [[32, 12]]
  | 3 => [[255]]
  | 4 => ["[\"vertex\",\"project\"]".toUTF8.toList]
  | _ => []

theorem item_dump_with_noise :
    let noisy : ByteStream := .ofLines (weave sampleNoise (itemDump []).lines)
    ingest {} {} noisy {} .empty =
      (.ok { itemReport 2 0 with
          lines := 7, vertices := 3, malformedLines := 1, ignoredRecords := 1 },
        itemStore {} ⟨1, [(1, ⟨⟨1, 6, 1, 1⟩, false⟩)]⟩) := by
  intro noisy
  have hplain : ingest {} {} (itemDump []) {} .empty =
      (.ok (itemReport 2 0), itemStore {} ⟨1, [(1, ⟨⟨1, 6, 1, 1⟩, false⟩)]⟩) := by decide +kernel
  have hnoise : (itemDump []).noise sampleNoise = [.blank, .malformed, .vertex] := by
    decide +kernel
  have hlines : noisy.lines = weave sampleNoise (itemDump []).lines :=
    lines_woven (itemDump []) (by decide +kernel)
  have h := (noise_shows_in_counts_only {} {} {} .empty hlines rfl (by decide +kernel)).1
  rw [hplain, hnoise] at h
  exact h

end SymbolAtlas
