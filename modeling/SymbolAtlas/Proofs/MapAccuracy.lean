import SymbolAtlas.Proofs.Clean
import SymbolAtlas.Proofs.Mirror

namespace SymbolAtlas

namespace IdMap

variable {α β : Type}

/-- No two ids have the same row. -/
structure RowsDistinct (m : IdMap α) (row : α → Int) : Prop where
  once : ∀ {id id' : Int} {a a' : α}, m.get? id = some a → m.get? id' = some a' →
    row a' = row a → id' = id

theorem RowsDistinct.empty (row : α → Int) : ({} : IdMap α).RowsDistinct row := ⟨by simp [get?]⟩

theorem RowsDistinct.insert_next {m : IdMap Int} {t : Table β} {f : β → Int} {run : Int}
    (h : m.RowsDistinct id) (ho : t.Ordered)
    (names : ∀ {j row}, m.get? j = some row → t.view f row = some run) (j : Int) :
    (m.insert j (t.last + 1)).RowsDistinct id :=
  ⟨once_insert h.once fun _ hj => ho.ne_next (Table.has_of_view (names hj))⟩

end IdMap

namespace Known

/-- Ids have rows to themselves, and the columns that are kept of the row of a claimed range are
those that stand in it. -/
structure MatchesRows (k : Known) (s : Store) : Prop where
  documents : k.documents.RowsDistinct id
  resultSets : k.resultSets.RowsDistinct id
  monikers : k.monikers.RowsDistinct id
  hovers : k.hovers.RowsDistinct id
  packages : k.packages.RowsDistinct id
  claimed : k.claimed.RowsDistinct ClaimedRange.row
  columns : ∀ {id range}, k.claimed.get? id = some range →
    ∃ span, s.ranges.get? range.row = some ⟨range.document, span, range.resultSet⟩

variable {k : Known} {s : Store} {bucket : Int} {kind : BucketKind}

theorem MatchesRows.learnKind (h : k.MatchesRows s) (bucket : Int) (kind : BucketKind) :
    (k.learnKind bucket kind).MatchesRows s := by
  rw [learnKind_eq]
  exact { h with }

theorem MatchesRows.empty (s : Store) : MatchesRows {} s :=
  ⟨.empty id, .empty id, .empty id, .empty id, .empty id, .empty _, by simp [IdMap.get?]⟩

theorem kindOf?_stays (h : k.kindOf? bucket = some kind) (id : Int) (other : BucketKind) :
    (k.learnKind id other).kindOf? bucket = some kind := by
  rw [kindOf?_learnKind, h, Option.some_or]

end Known

namespace Stage

variable {base : Store} {p : Stage}

theorem matchesRows_vertex (v : Vertex) (hg : p.Grounded base) (h : p.known.MatchesRows p.store) :
    (p.vertex v).known.MatchesRows (p.vertex v).store := by
  have ho := hg.keeps.ordered
  have hn := hg.names
  cases v with
  | document id uri languageId =>
    exact { h with documents := h.documents.insert_next ho.documents hn.documents id }
  | resultSet id =>
    exact { h with resultSets := h.resultSets.insert_next ho.resultSets hn.resultSets id }
  | moniker id scheme identifier kind package =>
    exact { h with monikers := h.monikers.insert_next ho.monikers hn.monikers id }
  | hoverResult id result =>
    exact { h with hovers := h.hovers.insert_next ho.hovers hn.hovers id }
  | packageInformation id name version manager =>
    exact { h with packages := h.packages.insert_next ho.packages hn.packages id }
  | bucket kind id => exact h.learnKind id kind
  | _ => exact { h with }

theorem matchesRows_claim (document : Int) (id : Int) (hg : p.Grounded base)
    (h : p.known.MatchesRows p.store) :
    (p.claim document id).known.MatchesRows (p.claim document id).store := by
  have ho := hg.keeps.ordered.ranges
  unfold claim
  split
  next => exact h
  next range _ =>
    refine { h with claimed := ⟨IdMap.once_insert h.claimed.once fun _ hj => ?_⟩, columns := ?_ }
    · exact ho.ne_next (Table.has_of_view (hg.names.claimed hj).1.ofDocument)
    · intro j other hj
      change (p.known.claimed.insert id _).get? j = some other at hj
      change ∃ span, (p.store.ranges.insert _).get? other.row = _
      rw [IdMap.get?_insert] at hj
      split at hj
      next =>
        cases Option.some.inj hj
        exact ⟨range.span, ho.get?_insert_next _⟩
      next =>
        obtain ⟨span, hrow⟩ := h.columns hj
        exact ⟨span, Table.get?_insert_of_some hrow⟩

theorem matchesRows_settingResultSet {outV : Int} {range : ClaimedRange}
    (h : p.known.MatchesRows p.store) (hc : p.known.claimed.get? outV = some range)
    (resultSet : Int) :
    Known.MatchesRows
      { p.known with
        claimed := p.known.claimed.insert outV { range with resultSet := some resultSet } }
      (p.store.settingResultSet range.row resultSet) := by
  refine { h with claimed := ⟨IdMap.once_insert h.claimed.once ?_⟩, columns := ?_ }
  · intro j other hne hj he
    exact hne (h.claimed.once hc hj he)
  · intro j other hj
    change ∃ span, (p.store.ranges.modify range.row _).get? other.row = _
    rw [Table.get?_modify]
    rw [IdMap.get?_insert] at hj
    split at hj
    next =>
      cases Option.some.inj hj
      obtain ⟨span, hrow⟩ := h.columns hc
      exact ⟨span, by simp [hrow]⟩
    next hne =>
      obtain ⟨span, hrow⟩ := h.columns hj
      have hother : other.row ≠ range.row := fun he => hne (h.claimed.once hc hj he)
      exact ⟨span, by simp [hrow, hother]⟩

theorem matchesRows_next (outV inV : Int) (h : p.known.MatchesRows p.store) :
    (p.next outV inV).known.MatchesRows (p.next outV inV).store := by
  unfold next
  split
  next => exact h
  next resultSet _ =>
    split
    next => exact { h with }
    next hc => exact matchesRows_settingResultSet h hc resultSet
    next => split <;> exact h

theorem matchesRows_bucket (kind : BucketKind) (outV inV : Int) (h : p.known.MatchesRows p.store) :
    (p.bucket kind outV inV).known.MatchesRows (p.bucket kind outV inV).store := by
  have hl := h.learnKind inV kind
  unfold bucket
  dsimp only
  split
  next => exact hl
  next => exact { hl with }

theorem matchesRows_item (bucket : Int) (property : Option String) (id : Int)
    (h : p.known.MatchesRows p.store) :
    (p.item bucket property id).known.MatchesRows (p.item bucket property id).store := by
  unfold item
  split
  next => exact h
  next => split <;> exact { h with }

/-- What is known is about rows of the run, and it is in step with them. -/
structure MapsKept (base : Store) (p : Stage) : Prop where
  grounded : p.Grounded base
  rows : p.known.MatchesRows p.store

/-- Every record keeps what is known in step with the rows. -/
theorem maps_kept (base : Store) : Kept (MapsKept base) where
  counting _ hc h := ⟨(grounded_kept base).counting _ hc h.grounded, h.rows⟩
  vertex v h := ⟨grounded_vertex v h.grounded, matchesRows_vertex v h.grounded h.rows⟩
  claim id hd h := ⟨grounded_claim id hd h.grounded, matchesRows_claim _ id h.grounded h.rows⟩
  next outV inV h := ⟨grounded_next outV inV h.grounded, matchesRows_next outV inV h.rows⟩
  moniker hr hm h := ⟨(grounded_kept base).moniker hr hm h.grounded, { h.rows with }⟩
  package hm hk h := ⟨(grounded_kept base).package hm hk h.grounded, { h.rows with }⟩
  bucket kind outV inV h :=
    ⟨grounded_bucket kind outV inV h.grounded, matchesRows_bucket kind outV inV h.rows⟩
  hover hr hh h := ⟨(grounded_kept base).hover hr hh h.grounded, { h.rows with }⟩
  item bucket property id h :=
    ⟨grounded_item bucket property id h.grounded, matchesRows_item bucket property id h.rows⟩

theorem kindOf?_kept (bucket : Int) (kind : BucketKind) :
    Kept fun p => p.known.kindOf? bucket = some kind where
  counting _ _ h := h
  vertex v h := by
    cases v with
    | bucket other id => exact Known.kindOf?_stays h id other
    | _ => exact h
  claim id _ h := by
    unfold claim
    split <;> exact h
  next outV inV h := by
    unfold next
    repeat' split
    all_goals exact h
  moniker _ _ h := h
  package _ _ h := h
  bucket other outV inV h := by
    have hl := Known.kindOf?_stays h inV other
    unfold Stage.bucket
    dsimp only
    split <;> exact hl
  hover _ _ h := h
  item id property target h := by
    unfold item
    split <;> exact h

end Stage

/-- All that an ingest knows is about rows of its run, and as these rows have it. -/
structure Ingestion.Accurate (g : Ingestion) (run : Int) (s : Store) : Prop where
  ofRun : g.run = run
  names : g.known.NamesRows run s
  rows : g.known.MatchesRows s

theorem Stage.MapsKept.accurate {base : Store} {run : Int} {p : Stage} (h : p.MapsKept base)
    (hr : p.Awaits run) : p.ingestion.Accurate run p.store := by
  have hrun : p.run = run := hr.run
  exact ⟨hrun, hrun ▸ h.grounded.names, h.rows⟩

section Ingest

variable {access : Access} {s u : Store} {about : RunMeta} {g : Ingestion}
  {before : List (List UInt8)}

theorem maps_stageAfter (h : s.Scoped) (about : RunMeta) (access : Access)
    (lines : List (List UInt8)) :
    (stageAfter about access s lines).MapsKept
        (s.withRun about (about.createdAt.getD access.clock)) ∧
      (stageAfter about access s lines).Awaits (s.runs.last + 1) :=
  ((Stage.maps_kept _).and (Stage.awaits_kept _)).lines lines
    ⟨⟨Stage.grounded_start h about _, .empty _⟩, ⟨rfl, rfl, rfl, rfl⟩⟩

/-- What an ingest knows is accurate after any lines of a dump, and whatever record comes next, it
is so again after it.  Since an edge with fewer targets is a record too, this holds between the
targets of an edge as well.  The kind of a bucket never changes. -/
theorem maps_stay_accurate (h : Reachable s)
    (hb : takeLines about access s before = (.ok g, u)) :
    g.Accurate (s.runs.last + 1) u ∧
    (∀ e access' g' v, g.element e access' u = (.ok g', v) →
      g'.Accurate (s.runs.last + 1) v ∧
        ∀ bucket kind, g.known.kindOf? bucket = some kind →
          g'.known.kindOf? bucket = some kind) ∧
    ∀ after g' v, takeLines about access s (before ++ after) = (.ok g', v) →
      ∀ bucket kind, g.known.kindOf? bucket = some kind →
        g'.known.kindOf? bucket = some kind := by
  have hstage : stageAfter about access s before = ⟨g, u⟩ := Ingestion.lines_stage hb
  have hmaps := maps_stageAfter h.scoped about access before
  rw [hstage] at hmaps
  refine ⟨hmaps.1.accurate hmaps.2, fun e access' g' v he => ⟨?_, fun bucket kind hk => ?_⟩,
    fun after g' v ha bucket kind hk => ?_⟩
  · have hnext := ((Stage.maps_kept _).and (Stage.awaits_kept _)).element e hmaps
    rw [Ingestion.element_stage he] at hnext
    exact hnext.1.accurate hnext.2
  · have hkind := (Stage.kindOf?_kept bucket kind).element (p := ⟨g, u⟩) e hk
    rw [Ingestion.element_stage he] at hkind
    exact hkind
  · obtain ⟨g₀, u₀, hb₀, hrest⟩ := Ingestion.lines_append_ok_iff.mp ha
    cases hb.symm.trans hb₀
    have hkind := (Stage.kindOf?_kept bucket kind).lines (p := ⟨g, u⟩) after hk
    rw [Ingestion.lines_stage hrest] at hkind
    exact hkind

end Ingest

/-- A range that is claimed, linked after that and declared once more, and a bucket of a kind. -/
def linkedTwiceLines : List (List UInt8) :=
  ["[\"vertex\",\"document\",1,\"a\",null]", "[\"vertex\",\"range\",2,[0,4],[0,7]]",
    "[\"vertex\",\"resultSet\",3]", "[\"edge\",\"contains\",1,[2]]", "[\"edge\",\"next\",2,3]",
    "[\"vertex\",\"range\",2,[1,4],[1,7]]", "[\"vertex\",\"definitionResult\",5]"].map
    fun line => line.toUTF8.toList

/-- An edge that takes the bucket for one of another kind. -/
def otherKindLine : List UInt8 := "[\"edge\",\"textDocument/references\",3,5]".toUTF8.toList

/-- The row of the range has the result set that is kept in mind, and the bucket its first kind. -/
theorem linked_range_columns_kept :
    ∃ g u g' v, takeLines {} {} .empty linkedTwiceLines = (.ok g, u) ∧
      takeLines {} {} .empty (linkedTwiceLines ++ [otherKindLine]) = (.ok g', v) ∧
      g.known.claimed.get? 2 = some ⟨1, 1, some 1⟩ ∧
      (∃ span, u.ranges.get? 1 = some ⟨1, span, some 1⟩) ∧
      g'.known.kindOf? 5 = some .definitions := by
  have hok : (takeLines {} {} .empty (linkedTwiceLines ++ [otherKindLine])).1.isOk = true := by
    decide +kernel
  have hknown : ((stageAfter {} {} .empty linkedTwiceLines).known.claimed.get? 2).map
        (fun range => (range.row, range.document, range.resultSet)) = some (1, 1, some 1) ∧
      (stageAfter {} {} .empty linkedTwiceLines).known.kindOf? 5 = some .definitions := by
    decide +kernel
  obtain ⟨hview, hkind⟩ := hknown
  obtain ⟨⟨row, document, resultSet⟩, hclaimed, ⟨⟩⟩ := Option.map_eq_some_iff.mp hview
  cases ht : takeLines {} {} .empty (linkedTwiceLines ++ [otherKindLine]) with
  | mk result v =>
    rw [ht] at hok
    cases result with
    | error e => cases hok
    | ok g' =>
      obtain ⟨g, u, hb, -⟩ := Ingestion.lines_append_ok_iff.mp ht
      have hstage : stageAfter {} {} .empty linkedTwiceLines = ⟨g, u⟩ := Ingestion.lines_stage hb
      rw [hstage] at hclaimed hkind
      obtain ⟨haccurate, -, hkinds⟩ := maps_stay_accurate .empty hb
      exact ⟨g, u, g', v, hb, rfl, hclaimed, haccurate.rows.columns hclaimed,
        hkinds _ g' v ht 5 .definitions hkind⟩

end SymbolAtlas
