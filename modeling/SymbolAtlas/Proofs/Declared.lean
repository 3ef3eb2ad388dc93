import SymbolAtlas.Proofs.Recall

/-!
The rows that vertices get.  A table gives every vertex the next of its numbers, and what the vertex
has declared stands in that row to the end.
-/

namespace SymbolAtlas

def Moniker.declared (m : Moniker) : Int × String × String × Option String :=
  (m.run, m.scheme, m.identifier, m.kind)

namespace Store

/-- The rows that vertices get stay as they are; a result set belongs to its run and a moniker has
its name, whatever else they get. -/
structure Keeps (s t : Store) : Prop where
  documents : ∀ {row d}, s.documents.get? row = some d → t.documents.get? row = some d
  hovers : ∀ {row h}, s.hovers.get? row = some h → t.hovers.get? row = some h
  packages : ∀ {row k}, s.packages.get? row = some k → t.packages.get? row = some k
  monikers : ∀ {row name}, s.monikers.view Moniker.declared row = some name →
    t.monikers.view Moniker.declared row = some name
  resultSets : ∀ {row run}, s.resultSetRun? row = some run → t.resultSetRun? row = some run

theorem Keeps.refl (s : Store) : s.Keeps s := ⟨id, id, id, id, id⟩

theorem Keeps.trans {s t u : Store} (h : s.Keeps t) (h' : t.Keeps u) : s.Keeps u :=
  ⟨fun hd => h'.documents (h.documents hd), fun hh => h'.hovers (h.hovers hh),
    fun hp => h'.packages (h.packages hp), fun hm => h'.monikers (h.monikers hm),
    fun hr => h'.resultSets (h.resultSets hr)⟩

theorem Write.keeps {run : Int} {s t : Store} (w : Write run s t) : s.Keeps t := by
  have h := Keeps.refl s
  cases w with
  | document uri languageId => exact { h with documents := fun hd => Table.get?_insert_of_some hd }
  | hover contents => exact { h with hovers := fun hh => Table.get?_insert_of_some hh }
  | package name version manager =>
    exact { h with packages := fun hp => Table.get?_insert_of_some hp }
  | moniker scheme identifier kind _ => exact { h with monikers := fun hm => Table.view_insert hm }
  | settingPackage _ _ =>
    refine { h with monikers := fun hm => Eq.trans ?_ hm }
    exact Table.view_modify fun _ => rfl
  | resultSet => exact { h with resultSets := fun hr => Table.view_insert hr }
  | settingBucket kind bucket _ =>
    refine { h with resultSets := fun hr => Eq.trans ?_ hr }
    exact Table.view_modify fun r => (setBucket_other r bucket kind).1
  | settingHover _ _ =>
    refine { h with resultSets := fun hr => Eq.trans ?_ hr }
    exact Table.view_modify fun _ => rfl
  | settingMoniker _ _ =>
    refine { h with resultSets := fun hr => Eq.trans ?_ hr }
    exact Table.view_modify fun _ => rfl
  | _ => exact { h with }

theorem keeps_writes {run : Int} {s t : Store}
    (path : Relation.ReflTransGen (Write run) s t) : s.Keeps t := by
  induction path with
  | refl => exact .refl s
  | tail _ w ih => exact ih.trans w.keeps

/-- The row that a vertex gets, as the first one that its table has not given out yet. -/
def HasRowOf (t base : Store) (run : Int) (past : Past) : Vertex → Prop
  | .document _ uri languageId =>
    t.documents.get? (base.documents.last + 1 + past.countP fun e => e.documentId?.isSome) =
      some ⟨run, uri, languageId⟩
  | .resultSet _ =>
    t.resultSetRun? (base.resultSets.last + 1 + past.countP fun e => e.resultSetId?.isSome) =
      some run
  | .moniker _ scheme identifier kind _ =>
    t.monikers.view Moniker.declared
      (base.monikers.last + 1 + past.countP fun e => e.monikerId?.isSome) =
        some (run, scheme, identifier, kind)
  | .hoverResult _ result =>
    t.hovers.get? (base.hovers.last + 1 + past.countP fun e => e.hoverId?.isSome) =
      some ⟨run, result.hoverText⟩
  | .packageInformation _ name version manager =>
    t.packages.get? (base.packages.last + 1 + past.countP fun e => e.packageId?.isSome) =
      some ⟨run, name, version, manager⟩
  | _ => True

theorem Keeps.hasRowOf {base s t : Store} {run : Int} {past : Past} {v : Vertex} (k : s.Keeps t)
    (h : s.HasRowOf base run past v) : t.HasRowOf base run past v := by
  cases v with
  | document id uri languageId => exact k.documents h
  | resultSet id => exact k.resultSets h
  | moniker id scheme identifier kind package => exact k.monikers h
  | hoverResult id result => exact k.hovers h
  | packageInformation id name version manager => exact k.packages h
  | _ => trivial

end Store

namespace Stage

open Store

variable {base start : Store} {past : Past} {p : Stage}

theorem Grounded.fromHere (h : p.Grounded start) : p.Grounded p.store :=
  ⟨h.live, h.keeps, h.names, .refl⟩

theorem Recalls.hasRowOf (h : Recalls base past p) (hg : p.Grounded start) (v : Vertex) :
    (p.vertex v).store.HasRowOf base p.run past v := by
  have ho := hg.keeps.ordered
  cases v with
  | document id uri languageId =>
    have hlast := h.documents.2
    have hrow := ho.documents.get?_insert_next ⟨p.run, uri, languageId⟩
    rw [hlast, Int.add_right_comm] at hrow
    exact hrow
  | resultSet id =>
    have hlast := h.resultSets.2
    have hrow := ho.resultSets.view_insert_next (f := ResultSet.run) { run := p.run }
    rw [hlast, Int.add_right_comm] at hrow
    exact hrow
  | moniker id scheme identifier kind package =>
    have hlast := h.monikers.2
    have hrow := ho.monikers.view_insert_next (f := Moniker.declared)
      ⟨p.run, scheme, identifier, kind, package.bind p.known.packages.get?⟩
    rw [hlast, Int.add_right_comm] at hrow
    exact hrow
  | hoverResult id result =>
    have hlast := h.hovers.2
    have hrow := ho.hovers.get?_insert_next ⟨p.run, result.hoverText⟩
    rw [hlast, Int.add_right_comm] at hrow
    exact hrow
  | packageInformation id name version manager =>
    have hlast := h.packages.2
    have hrow := ho.packages.get?_insert_next ⟨p.run, name, version, manager⟩
    rw [hlast, Int.add_right_comm] at hrow
    exact hrow
  | _ => trivial

/-- Every vertex so far has its row. -/
def Declares (base : Store) (run : Int) (past : Past) (p : Stage) : Prop :=
  ∀ before v after, past = after ++ .vertex v :: before → p.store.HasRowOf base run before v

theorem Declares.keeps {run : Int} {e : Element} {q : Stage} (h : Declares base run past p)
    (hk : p.store.Keeps q.store)
    (hnew : ∀ v, e = .vertex v → q.store.HasRowOf base run past v) :
    Declares base run (e :: past) q := by
  intro before v after hsplit
  cases after with
  | nil =>
    obtain ⟨he, hbefore⟩ := List.cons.inj hsplit
    rw [← hbefore]
    exact hnew v he
  | cons last rest =>
    obtain ⟨-, hrest⟩ := List.cons.inj hsplit
    exact hk.hasRowOf (h before v rest hrest)

/-- All that is kept in view of the records: what is known of them, the run, and the rows of the
vertices. -/
structure Abides (base start : Store) (run : Int) (past : Past) (p : Stage) : Prop where
  recalls : Recalls base past p
  grounded : p.Grounded start
  awaits : p.Awaits run
  declares : Declares base run past p

theorem abides_follows (ho : base.ranges.Ordered) (start : Store) (run : Int) :
    Follows (Abides base start run) where
  counting hc hd h := ⟨(recalls_follows ho).counting hc hd h.recalls,
    (grounded_kept start).counting _ hc h.grounded, (awaits_kept run).counting _ hc h.awaits,
    h.declares⟩
  vertex v h := by
    have hpath := ((grounded_kept _).vertex v h.grounded.fromHere).path
    refine ⟨h.recalls.vertex v, (grounded_kept start).vertex v h.grounded,
      (awaits_kept run).vertex v h.awaits, h.declares.keeps (keeps_writes hpath) ?_⟩
    intro w hw
    cases hw
    have hrow := h.recalls.hasRowOf h.grounded v
    rwa [h.awaits.run] at hrow
  edge e h := by
    have hpath := ((grounded_kept _).edge e h.grounded.fromHere).path
    refine ⟨h.recalls.edge ho e, (grounded_kept start).edge e h.grounded,
      (awaits_kept run).edge e h.awaits, h.declares.keeps (keeps_writes hpath) ?_⟩
    intro v hv
    cases hv

theorem abides_start {s : Store} (h : s.Scoped) (about : RunMeta) (createdAt : Int) :
    Abides s (s.withRun about createdAt) (s.runs.last + 1) []
      ⟨.start (s.runs.last + 1), s.withRun about createdAt⟩ where
  recalls := recalls_start s about createdAt
  grounded := grounded_start h about createdAt
  awaits := ⟨rfl, rfl, rfl, rfl⟩
  declares := by
    intro before v after hsplit
    simp at hsplit

end Stage

theorem Stage.Follows.stageAfter {motive : Past → Stage → Prop} (k : Stage.Follows motive)
    {s : Store} (about : RunMeta) (access : Access) (stream : ByteStream)
    (h : motive []
      ⟨.start (s.runs.last + 1), s.withRun about (about.createdAt.getD access.clock)⟩) :
    motive stream.records.reverse (stageAfter about access s stream.lines) := by
  have hend := k.lines h stream.lines
  rwa [List.append_nil] at hend

section Dumps

variable {access : Access} {s t : Store} {settings : IngestSettings} {about : RunMeta}
  {stream : ByteStream} {report : Report}

theorem abides_stageAfter (h : s.Scoped) (about : RunMeta) (access : Access)
    (stream : ByteStream) :
    Stage.Abides s (s.withRun about (about.createdAt.getD access.clock)) (s.runs.last + 1)
      stream.records.reverse (stageAfter about access s stream.lines) :=
  (Stage.abides_follows h.ordered.ranges _ _).stageAfter about access stream
    (Stage.abides_start h about _)

theorem stageAfter_keeps (h : s.Scoped) (about : RunMeta) (access : Access) (stream : ByteStream)
    {motive : Past → Stage → Prop}
    (start : motive []
      ⟨.start (s.runs.last + 1), s.withRun about (about.createdAt.getD access.clock)⟩)
    (counting : ∀ {past p} (change : Report → Report), motive past p →
      motive past (p.counting change))
    (vertex : ∀ {past p} (v : Vertex), motive past p → motive (.vertex v :: past) (p.vertex v))
    (edge : ∀ {past p} (e : Edge),
      Stage.Abides s (s.withRun about (about.createdAt.getD access.clock)) (s.runs.last + 1)
        past p →
      motive past p → motive (.edge e :: past) (p.edge e)) :
    motive stream.records.reverse (stageAfter about access s stream.lines) := by
  have habides := Stage.abides_follows h.ordered.ranges
    (s.withRun about (about.createdAt.getD access.clock)) (s.runs.last + 1)
  have hboth : Stage.Follows fun past p =>
      Stage.Abides s (s.withRun about (about.createdAt.getD access.clock)) (s.runs.last + 1)
        past p ∧ motive past p :=
    { counting := fun hc hd hk => ⟨habides.counting hc hd hk.1, counting _ hk.2⟩
      vertex := fun v hk => ⟨habides.vertex v hk.1, vertex v hk.2⟩
      edge := fun e hk => ⟨habides.edge e hk.1, edge e hk.1 hk.2⟩ }
  exact (hboth.stageAfter about access stream ⟨Stage.abides_start h about _, start⟩).2

/-- The row of every vertex of a dump is in the store in the end. -/
theorem rows_declared (h : s.Scoped)
    (hi : ingest settings about stream access s = (.ok report, t)) (before : List Element)
    (v : Vertex) (after : List Element) (hsplit : stream.records = before ++ .vertex v :: after) :
    t.HasRowOf s report.run before.reverse v := by
  obtain ⟨hrun, -, ht⟩ := ingest_ok_stage hi
  have hpast : stream.records.reverse = after.reverse ++ .vertex v :: before.reverse := by
    rw [hsplit]
    simp
  have hrow := (abides_stageAfter h about access stream).declares _ v _ hpast
  rw [ht, hrun]
  exact hrow

end Dumps

end SymbolAtlas
