import SymbolAtlas.Proofs.Declared

namespace SymbolAtlas

/-- The columns of a result set that edges write. -/
inductive Column where
  | bucket (kind : BucketKind)
  | hover
  | moniker
deriving DecidableEq

def ResultSet.column? (r : ResultSet) : Column → Option Int
  | .bucket kind => r.bucket? kind
  | .hover => r.hover
  | .moniker => r.moniker

/-- What the last edge has written into a column: one of its own label, that led to the row when it
came, and whose text or moniker was declared before. -/
def Past.column? (base : Store) (past : Past) (row : Int) (column : Column) : Option Int :=
  past.latest fun e past =>
    match e with
    | .edge (.bucket kind outV inV) =>
      if column = .bucket kind ∧ past.leadsTo? base outV = some row then some inV else none
    | .edge (.hover outV inV) =>
      if column = .hover ∧ past.leadsTo? base outV = some row then past.hoverRow? base inV
      else none
    | .edge (.moniker outV inV) =>
      if column = .moniker ∧ past.leadsTo? base outV = some row then past.monikerRow? base inV
      else none
    | _ => none

namespace Store

/-- What stands in a column of a result set, if it is there. -/
def column? (s : Store) (row : Int) (column : Column) : Option Int :=
  (s.resultSets.get? row).bind fun r => r.column? column

variable {s : Store} {row target value : Int} {column written : Column}

theorem column?_modify {change : ResultSet → ResultSet} (hrow : s.resultSets.has target = true)
    (hself : ∀ r, (change r).column? written = some value)
    (hother : ∀ r other, other ≠ written → (change r).column? other = r.column? other) :
    ({ s with resultSets := s.resultSets.modify target change } : Store).column? row column =
      (if column = written ∧ some target = some row then some value else none).or
        (s.column? row column) := by
  unfold column?
  by_cases hr : target = row
  · subst hr
    by_cases hc : column = written
    · subst hc
      rw [if_pos ⟨rfl, rfl⟩]
      exact Table.bind_get?_modify_self hrow hself
    · rw [if_neg fun h => hc h.1]
      exact Table.bind_get?_modify_other (.inr fun r => hother r column hc)
  · have hne : ¬ some target = some row := fun h => hr (Option.some.inj h)
    rw [if_neg fun h => hne h.2]
    exact Table.bind_get?_modify_other (.inl (Ne.symm hr))

theorem column?_settingBucket (hrow : s.resultSets.has target = true) (kind : BucketKind) :
    (s.settingBucket target kind value).column? row column =
      (if column = .bucket kind ∧ some target = some row then some value else none).or
        (s.column? row column) := by
  refine column?_modify hrow (fun r => bucket?_setBucket_self r value kind) fun r other hne => ?_
  cases other with
  | bucket other =>
    have hkind : kind ≠ other := fun he => hne (he ▸ rfl)
    exact bucket?_setBucket_other r value hkind
  | hover => exact (setBucket_other r value kind).2.1
  | moniker => exact (setBucket_other r value kind).2.2

theorem column?_settingHover (hrow : s.resultSets.has target = true) :
    (s.settingHover target value).column? row column =
      (if column = .hover ∧ some target = some row then some value else none).or
        (s.column? row column) := by
  refine column?_modify hrow (fun _ => rfl) fun r other hne => ?_
  cases other with
  | bucket kind => cases kind <;> rfl
  | hover => exact absurd rfl hne
  | moniker => rfl

theorem column?_settingMoniker (hrow : s.resultSets.has target = true) :
    (s.settingMoniker target value).column? row column =
      (if column = .moniker ∧ some target = some row then some value else none).or
        (s.column? row column) := by
  refine column?_modify hrow (fun _ => rfl) fun r other hne => ?_
  cases other with
  | bucket kind => cases kind <;> rfl
  | hover => rfl
  | moniker => exact absurd rfl hne

theorem column?_withResultSet (s : Store) (run row : Int) (column : Column) :
    (s.withResultSet run).column? row column = s.column? row column := by
  have hnew : ({ run := run } : ResultSet).column? column = none := by
    cases column with
    | bucket kind => cases kind <;> rfl
    | hover => rfl
    | moniker => rfl
  change ((s.resultSets.insert { run := run }).get? row).bind _ = _
  rw [Table.get?_insert]
  unfold column?
  cases s.resultSets.get? row with
  | some r => rfl
  | none =>
    by_cases hr : row = s.resultSets.last + 1
    · simp [hr, hnew]
    · simp [hr]

end Store

namespace Stage

variable {base start : Store} {past : Past} {run : Int} {p : Stage}

/-- The columns of the rows that the dump has brought are as the records say. -/
def Writes (base : Store) (past : Past) (p : Stage) : Prop :=
  ∀ row column, base.resultSets.has row = false →
    p.store.column? row column = past.column? base row column

theorem writes_vertex (v : Vertex) (h : Writes base past p) :
    Writes base (.vertex v :: past) (p.vertex v) := by
  intro row column hrow
  cases v with
  | resultSet id =>
    exact (Store.column?_withResultSet p.store p.run row column).trans (h row column hrow)
  | _ => exact h row column hrow

theorem column?_of_same {s t : Store} (h : t.resultSets = s.resultSets) (row : Int)
    (column : Column) : t.column? row column = s.column? row column := by
  unfold Store.column?
  rw [h]

theorem column?_joined {q : Stage} {row : Int} {column written : Column}
    {source target : Option Int} {store : Int → Int → Store}
    (hq : q = match source, target with
      | some a, some b => p.writing (store a b)
      | _, _ => p.dangling)
    (hwrite : ∀ a b, source = some a → (store a b).column? row column =
      (if column = written ∧ some a = some row then some b else none).or
        (p.store.column? row column)) :
    q.store.column? row column =
      (if column = written ∧ source = some row then target else none).or
        (p.store.column? row column) := by
  subst hq
  cases source with
  | none => simp [dangling]
  | some a =>
    cases target with
    | none => simp [dangling]
    | some b => exact hwrite a b rfl

theorem column?_bucket (p : Stage) (kind : BucketKind) (outV inV row : Int) (column : Column)
    (hrow : ∀ target, p.known.resultSetOf? outV = some target →
      p.store.resultSets.has target = true) :
    (p.bucket kind outV inV).store.column? row column =
      (if column = .bucket kind ∧ p.known.resultSetOf? outV = some row then some inV else none).or
        (p.store.column? row column) := by
  have hlearned := resultSetOf?_learnKind p.known inV outV kind
  simp only [Stage.bucket, learn, known, Ingestion.learn, hlearned]
  cases hr : p.known.resultSetOf? outV with
  | none => simp [dangling]
  | some target => exact Store.column?_settingBucket (hrow target hr) kind

theorem writes_edge (e : Edge) (ha : Abides base start run past p) (h : Writes base past p) :
    Writes base (.edge e :: past) (p.edge e) := by
  intro row column hrow
  have hold := h row column hrow
  have hhas : ∀ {id target : Int}, p.known.resultSetOf? id = some target →
      p.store.resultSets.has target = true :=
    fun hr => Table.has_of_view (ha.grounded.names.resultSetOf? hr)
  cases e with
  | contains outV inVs =>
    refine Eq.trans (column?_of_same ?_ row column) hold
    simp only [edge]
    split
    next => rfl
    next document _ =>
      obtain ⟨_, _, _, hfold, -⟩ := claims_taken document inVs ha.recalls.waiting
        ha.recalls.stored ha.recalls.ranges
      rw [hfold]
      rfl
  | next outV inV =>
    refine Eq.trans (column?_of_same ?_ row column) hold
    simp only [edge, Stage.next]
    repeat' split
    all_goals rfl
  | moniker outV inV =>
    change _ = (if column = .moniker ∧ past.leadsTo? base outV = some row then
      past.monikerRow? base inV else none).or (past.column? base row column)
    have hmoniker : p.known.monikers.get? inV = past.monikerRow? base inV :=
      ha.recalls.monikers.1 inV
    rw [← hold, ← ha.recalls.resultSetOf? outV, ← hmoniker]
    exact column?_joined rfl fun _ _ hr => Store.column?_settingMoniker (hhas hr)
  | packageInformation outV inV =>
    refine Eq.trans (column?_of_same ?_ row column) hold
    simp only [edge]
    split <;> rfl
  | bucket kind outV inV =>
    change _ = (if column = .bucket kind ∧ past.leadsTo? base outV = some row then some inV
      else none).or (past.column? base row column)
    rw [← hold, ← ha.recalls.resultSetOf? outV]
    exact column?_bucket p kind outV inV row column fun _ => hhas
  | hover outV inV =>
    change _ = (if column = .hover ∧ past.leadsTo? base outV = some row then
      past.hoverRow? base inV else none).or (past.column? base row column)
    have hhover : p.known.hovers.get? inV = past.hoverRow? base inV := ha.recalls.hovers.1 inV
    rw [← hold, ← ha.recalls.resultSetOf? outV, ← hhover]
    exact column?_joined rfl fun _ _ hr => Store.column?_settingHover (hhas hr)
  | item outV inVs inV property =>
    refine Eq.trans (column?_of_same ?_ row column) hold
    rw [edge, items_store]
    rfl
  | other => exact hold

end Stage

section Dumps

variable {access : Access} {s t : Store} {settings : IngestSettings} {about : RunMeta}
  {stream : ByteStream} {report : Report}

theorem writes_stageAfter (h : s.Scoped) (about : RunMeta) (access : Access)
    (stream : ByteStream) :
    Stage.Writes s stream.records.reverse (stageAfter about access s stream.lines) := by
  refine stageAfter_keeps (motive := Stage.Writes s) h about access stream ?_ (fun _ hw => hw)
    (fun v hw => Stage.writes_vertex v hw) fun e ha hw => Stage.writes_edge e ha hw
  intro row column hrow
  have hnone : s.resultSets.get? row = none := by
    rw [← Option.not_isSome_iff_eq_none]
    exact fun hsome => by simp [Table.has, hsome] at hrow
  change (s.resultSets.get? row).bind _ = none
  rw [hnone]
  rfl

/-- Every column of a result set of the run has what the last edge of its label has written that led
to the result set when it came, and nothing if there was none. -/
theorem columns_last_written (h : Reachable s)
    (hi : ingest settings about stream access s = (.ok report, t)) :
    let past : Past := stream.records.reverse
    (∀ row r, t.resultSets.get? row = some r → r.run = report.run →
      ∀ column, r.column? column = past.column? s row column) ∧
    ∀ before v after, stream.records = before ++ .vertex v :: after →
      t.HasRowOf s report.run before.reverse v := by
  intro past
  have hs := h.scoped
  have ha := abides_stageAfter hs about access stream
  obtain ⟨hrun, -, ht⟩ := ingest_ok_stage hi
  refine ⟨fun row r hr hin column => ?_, rows_declared hs hi⟩
  have hr' : (stageAfter about access s stream.lines).store.resultSets.get? row = some r := by
    rw [ht] at hr
    exact hr
  -- The result sets that were there before belong to other runs, and stay there.
  have hnew : s.resultSets.has row = false := by
    rw [Bool.eq_false_iff]
    intro hold
    obtain ⟨a, hget⟩ := Table.has_iff.mp hold
    have hkeeps := Store.keeps_writes ha.grounded.path
    have hrow := hkeeps.resultSets (Table.view_eq_some_iff.mpr ⟨a, hget, rfl⟩)
    obtain ⟨a', hget', hsame⟩ := Table.view_eq_some_iff.mp hrow
    cases Option.some.inj (hr'.symm.trans hget')
    apply hs.ordered.runs.ne_next (hs.resultSets _ (Table.mem_of_get? hget))
    change a.run = s.runs.last + 1
    omega
  have hcolumn := writes_stageAfter hs about access stream row column hnew
  unfold Store.column? at hcolumn
  rw [hr', Option.bind_some] at hcolumn
  exact hcolumn

end Dumps

/-- A range that leads to one result set and then to another one, with edges from it before and
after that, and edges that come later. -/
def redirectedLines : List (List UInt8) :=
  ["[\"vertex\",\"document\",1,\"a\",null]", "[\"vertex\",\"range\",2,[0,4],[0,7]]",
    "[\"vertex\",\"resultSet\",3]", "[\"vertex\",\"resultSet\",4]",
    "[\"vertex\",\"hoverResult\",5,\"f\"]", "[\"vertex\",\"hoverResult\",6,\"g\"]",
    "[\"edge\",\"next\",2,3]", "[\"edge\",\"textDocument/definition\",2,10]",
    "[\"edge\",\"contains\",1,[2]]", "[\"edge\",\"textDocument/hover\",3,5]",
    "[\"edge\",\"textDocument/hover\",2,6]", "[\"edge\",\"textDocument/hover\",2,7]",
    "[\"edge\",\"next\",2,4]", "[\"edge\",\"textDocument/definition\",2,11]",
    "[\"edge\",\"textDocument/definition\",3,12]"].map fun line => line.toUTF8.toList

def redirectedReport : Report where
  run := 1
  lines := 15
  vertices := 6
  edges := 9
  danglingReferences := 1
  derivation := some ⟨0, 0, 0, 0⟩

def redirectedStore : Store where
  runs := ⟨1, [(1, { repo := none, commit := none, createdAt := 0 })]⟩
  documents := ⟨1, [(1, ⟨1, "a", none⟩)]⟩
  hovers := ⟨2, [(1, ⟨1, "f"⟩), (2, ⟨1, "g"⟩)]⟩
  resultSets := ⟨2, [(1, { run := 1, definitions := some 12, hover := some 2 }),
    (2, { run := 1, definitions := some 11 })]⟩
  ranges := ⟨1, [(1, ⟨1, .ofCoords 0 4 0 7, some 2⟩)]⟩

/-- The second text stays, because no text was declared for the edge after it, and each result set
has the last bucket that was meant for it. -/
theorem redirected_columns :
    Past.column? .empty (ByteStream.ofLines redirectedLines).records.reverse 1 .hover = some 2 ∧
      Past.column? .empty (ByteStream.ofLines redirectedLines).records.reverse 1
        (.bucket .definitions) = some 12 ∧
      Past.column? .empty (ByteStream.ofLines redirectedLines).records.reverse 2
        (.bucket .definitions) = some 11 ∧
      Past.column? .empty (ByteStream.ofLines redirectedLines).records.reverse 2 .hover = none := by
  have hi : ingest {} {} (.ofLines redirectedLines) {} .empty =
      (.ok redirectedReport, redirectedStore) := by decide +kernel
  have hcolumns := (columns_last_written .empty hi).1
  have hfirst := hcolumns 1 { run := 1, definitions := some 12, hover := some 2 } rfl rfl
  have hsecond := hcolumns 2 { run := 1, definitions := some 11 } rfl rfl
  exact ⟨(hfirst .hover).symm, (hfirst (.bucket .definitions)).symm,
    (hsecond (.bucket .definitions)).symm, (hsecond .hover).symm⟩

end SymbolAtlas
