import SymbolAtlas.Proofs.Connections
import SymbolAtlas.Proofs.Isolation

namespace SymbolAtlas

theorem covers_eq_contains (s : Span) (p : Position) : s.covers p = s.contains p := by
  rw [Bool.eq_iff_iff]
  simp only [Span.covers, Span.contains, Position.before]
  simp only [Bool.and_eq_true, Bool.or_eq_true, Bool.not_eq_true', Bool.or_eq_false_iff,
    Bool.and_eq_false_iff, decide_eq_true_eq, decide_eq_false_iff_not]
  omega

theorem keyLe_total (a b : List Int) : (keyLe a b || keyLe b a) = true := by
  induction a generalizing b with
  | nil => rfl
  | cons x as ih =>
    cases b with
    | nil => rfl
    | cons y bs =>
      have hi := ih bs
      simp only [keyLe, Bool.or_eq_true, Bool.and_eq_true, decide_eq_true_eq] at hi ⊢
      rcases Int.lt_trichotomy x y with hlt | rfl | hgt
      · exact .inl (.inl hlt)
      · exact hi.imp (fun h => .inr ⟨rfl, h⟩) fun h => .inr ⟨rfl, h⟩
      · exact .inr (.inl hgt)

theorem keyLe_trans (a b c : List Int) (hab : keyLe a b = true) (hbc : keyLe b c = true) :
    keyLe a c = true := by
  induction a generalizing b c with
  | nil => rfl
  | cons x as ih =>
    cases b with
    | nil => simp [keyLe] at hab
    | cons y bs =>
      cases c with
      | nil => simp [keyLe] at hbc
      | cons z cs =>
        have hi := ih bs cs
        simp only [keyLe, Bool.or_eq_true, Bool.and_eq_true, decide_eq_true_eq] at hab hbc ⊢
        rcases hab with hab | ⟨rfl, hab⟩
        · rcases hbc with hbc | ⟨rfl, -⟩
          · exact .inl (by omega)
          · exact .inl hab
        · rcases hbc with hbc | ⟨rfl, hbc⟩
          · exact .inl hbc
          · exact .inr ⟨rfl, hi hab hbc⟩

namespace RangeDetails

theorem key_le_iff {a b : RangeDetails} :
    keyLe a.key b.key = true ↔
      b.range.span.smaller a.range.span = false ∧
        (a.range.span.smaller b.range.span = false → a.id ≤ b.id) := by
  simp only [key, keyLe, Span.smaller, Bool.or_eq_true, Bool.and_eq_true, Bool.or_eq_false_iff,
    Bool.and_eq_false_iff, decide_eq_true_eq, decide_eq_false_iff_not, and_true]
  omega

/-- Of ranges in the order of their numbers, the first one by key is the first that no other is
smaller than. -/
theorem head?_mergeSort {list : List RangeDetails}
    (hl : list.Pairwise fun a b => a.id < b.id) :
    (list.mergeSort fun a b => keyLe a.key b.key).head? =
      list.find? fun r => list.all fun d => !d.range.span.smaller r.range.span := by
  have hsorted : (list.mergeSort fun a b => keyLe a.key b.key).Pairwise
      fun a b => keyLe a.key b.key = true :=
    List.pairwise_mergeSort (fun a b c => keyLe_trans a.key b.key c.key)
      (fun a b => keyLe_total a.key b.key) list
  have hmem : ∀ d, d ∈ list.mergeSort (fun a b => keyLe a.key b.key) ↔ d ∈ list :=
    fun d => List.mem_mergeSort
  cases hs : list.mergeSort fun a b => keyLe a.key b.key with
  | nil =>
    have hnil : list = [] := List.eq_nil_iff_forall_not_mem.mpr fun d hd => by
      have hd' := (hmem d).mpr hd
      rw [hs] at hd'
      simp at hd'
    rw [hnil]
    rfl
  | cons r rest =>
    rw [hs] at hsorted hmem
    have hleast : ∀ d ∈ list, keyLe r.key d.key = true := by
      intro d hd
      rcases List.mem_cons.mp ((hmem d).mpr hd) with rfl | hd
      · exact (Bool.or_self _).symm.trans (keyLe_total d.key d.key)
      · exact (List.pairwise_cons.mp hsorted).1 d hd
    obtain ⟨before, rest', he⟩ := List.append_of_mem ((hmem r).mp List.mem_cons_self)
    rw [List.head?_cons, eq_comm, List.find?_eq_some_iff_append]
    refine ⟨?_, before, rest', he, fun a ha => ?_⟩
    · rw [List.all_eq_true]
      intro d hd
      rw [(key_le_iff.mp (hleast d hd)).1]
      rfl
    · -- An earlier range has a lower number, so it can only come later by its size.
      have ha' : a ∈ list := he ▸ List.mem_append_left _ ha
      have hlt : a.id < r.id := by
        rw [he, List.pairwise_append] at hl
        exact hl.2.2 a ha r List.mem_cons_self
      have hsmaller : r.range.span.smaller a.range.span = true := by
        by_contra hn
        have := (key_le_iff.mp (hleast a ha')).2 (Bool.eq_false_iff.mpr hn)
        omega
      rw [Bool.not_eq_true', List.all_eq_false]
      exact ⟨r, he ▸ List.mem_append_right _ List.mem_cons_self, by simp [hsmaller]⟩

end RangeDetails

section Related

variable {α β : Type} {R : α → β → Prop} {as : List α} {bs : List β} {f : α → Bool} {g : β → Bool}

theorem all_related (h : List.Forall₂ R as bs) (hfg : ∀ a b, R a b → f a = g b) :
    as.all f = bs.all g := by
  induction h with
  | nil => rfl
  | cons hr _ ih => rw [List.all_cons, List.all_cons, hfg _ _ hr, ih]

theorem find?_related (h : List.Forall₂ R as bs) (hfg : ∀ a b, R a b → f a = g b) :
    Option.Rel R (as.find? f) (bs.find? g) := by
  induction h with
  | nil => exact .none
  | @cons a b _ _ hr _ ih =>
    rw [List.find?_cons, List.find?_cons, hfg a b hr]
    cases g b with
    | true => exact .some hr
    | false => exact ih

end Related

theorem Store.covering_eq (s : Store) (run : Int) (uri : String) (p : Position) :
    s.covering run uri p =
      (s.ranges.rows.filter fun r => s.inDocument run uri r.2 && r.2.span.contains p).map
        fun r => ⟨r.1, r.2⟩ := by
  simp only [covering, covers_eq_contains, ← List.filterMap_eq_map, List.filterMap_filter]
  rfl

namespace Stage

variable {base : Store} {past : Past} {p : Stage}

/-- The row of a range and its claim, for ranges as they are looked up. -/
def ReadsDetails (past : Past) (p : Stage) (r : RangeDetails) (c : Claim) : Prop :=
  Reads past.span? p.known.claimed p.store.documents (r.id, r.range) c

theorem Mirrors.covering (h : Mirrors past p) (hg : p.Grounded base) (uri : String)
    (q : Position) :
    List.Forall₂ (ReadsDetails past p) (p.store.covering p.run uri q)
      (Claim.covering past.claims uri q) := by
  rw [← Store.covering_only hg.keeps, Store.covering_eq, List.forall₂_map_left_iff]
  refine List.rel_filter (fun r c hrow => ?_) (Agrees.rows h)
  obtain ⟨-, d, -, -, hd, hrun⟩ := (hg.names.claimed hrow.known).1.rows
  obtain ⟨d', hd', huri⟩ := Table.view_eq_some_iff.mp hrow.uri
  cases Option.some.inj (hd.symm.trans hd')
  have hin : p.store.inDocument p.run uri r.2 = (c.uri == uri) := by
    simp only [Store.inDocument, Table.holds, hd, Option.any_some, hrun, huri, beq_self_eq_true,
      Bool.true_and]
  dsimp only
  rw [Store.inDocument_only hg.keeps, hin, show r.2.span = c.span from hrow.span]

theorem Mirrors.innermost (h : Mirrors past p) (hg : p.Grounded base) (uri : String)
    (q : Position) :
    Option.Rel (ReadsDetails past p) (p.store.innermost? p.run uri q)
      (Claim.innermost? past.claims uri q) := by
  have hrel := h.covering hg uri q
  have hinc : (p.store.covering p.run uri q).Pairwise fun a b => a.id < b.id := by
    rw [Store.covering_eq, List.pairwise_map]
    exact hg.keeps.ordered.ranges.increasing.filter _
  unfold Store.innermost? Claim.innermost?
  rw [RangeDetails.head?_mergeSort hinc]
  refine find?_related hrel fun r c hr => all_related hrel fun r' c' hr' => ?_
  rw [show r.range.span = c.span from hr.span, show r'.range.span = c'.span from hr'.span]

theorem Mirrors.resultSetAt (h : Mirrors past p) (hg : p.Grounded base) (uri : String)
    (q : Position) :
    match past.resultSetAt? uri q with
    | none => p.store.resultSetAt? ⟨p.run, uri, q⟩ = none
    | some id => ∃ a, p.store.resultSetAt? ⟨p.run, uri, q⟩ = some a ∧
        a.hover.bind (p.store.hovers.view Hover.contents) = past.hover? id ∧
        a.definitions = past.definitions? id := by
  have hrel := h.innermost hg uri q
  unfold Past.resultSetAt? Store.resultSetAt?
  dsimp only
  cases hc : Claim.innermost? past.claims uri q with
  | none =>
    rw [hc] at hrel
    cases hi : p.store.innermost? p.run uri q with
    | none => rfl
    | some r =>
      rw [hi] at hrel
      cases hrel
  | some c =>
    rw [hc] at hrel
    cases hi : p.store.innermost? p.run uri q with
    | none =>
      rw [hi] at hrel
      cases hrel
    | some r =>
      rw [hi] at hrel
      cases hrel with
      | some hrow =>
        have hlink : r.range.resultSet = (past.resultSet? c.range).bind p.known.resultSets.get? :=
          (Agrees.claimed h hrow.known).2
        simp only [Option.bind_eq_bind, Option.bind_some, hlink]
        cases hs : past.resultSet? c.range with
        | none => rfl
        | some id =>
          obtain ⟨row, hrow⟩ := Option.isSome_iff_exists.mp
            ((Agrees.resultSets h id).trans (Past.resultSet?_seen hs).2)
          obtain ⟨a, ha, hcont⟩ := Agrees.contents h hrow
          refine ⟨a, ?_, hcont⟩
          simp only [Option.bind_some, hrow, ha]

theorem Mirrors.hoverAt (h : Mirrors past p) (hg : p.Grounded base) (uri : String)
    (q : Position) : p.store.hoverAt? ⟨p.run, uri, q⟩ = past.hoverAt? uri q := by
  have hat := h.resultSetAt hg uri q
  unfold Past.hoverAt? Store.hoverAt?
  cases hs : past.resultSetAt? uri q with
  | none =>
    simp only [hs] at hat
    rw [hat]
    rfl
  | some id =>
    simp only [hs] at hat
    obtain ⟨a, ha, hover, -⟩ := hat
    rw [ha, Option.bind_some, ← hover]
    cases hh : a.hover with
    | none => simp [hh]
    | some row =>
      simp only [Option.bind_eq_bind, Option.bind_some, hh, Table.view]
      cases p.store.hovers.get? row <;> rfl

theorem Mirrors.definitionsAt (h : Mirrors past p) (hg : p.Grounded base) (uri : String)
    (q : Position) : p.store.definitionsAt ⟨p.run, uri, q⟩ = past.definitionsAt uri q := by
  have hat := h.resultSetAt hg uri q
  have hbucket : p.store.bucketAt? ⟨p.run, uri, q⟩ .definitions =
      (past.resultSetAt? uri q).bind past.definitions? := by
    unfold Store.bucketAt?
    cases hs : past.resultSetAt? uri q with
    | none =>
      simp only [hs] at hat
      rw [hat]
      rfl
    | some id =>
      simp only [hs] at hat
      obtain ⟨a, ha, -, hd⟩ := hat
      rw [ha]
      exact hd
  unfold Past.definitionsAt Store.definitionsAt
  rw [hbucket]
  cases (past.resultSetAt? uri q).bind past.definitions? with
  | none => rfl
  | some bucket => exact Agrees.definitionItems h bucket

theorem Mirrors.element (h : Mirrors past p) (hg : p.Grounded base) (e : Element)
    (hn : (Past.ids (e :: past)).Nodup) : Mirrors (e :: past) (p.element e) := by
  cases e with
  | vertex v =>
    have hc : Grounded base (p.counting fun r => { r with vertices := r.vertices + 1 }) :=
      ⟨hg.live, hg.keeps, hg.names, hg.path⟩
    exact Mirrors.vertex (Agrees.counting h _) hc v hn
  | edge e =>
    have hc : Grounded base (p.counting fun r => { r with edges := r.edges + 1 }) :=
      ⟨hg.live, hg.keeps, hg.names, hg.path⟩
    exact Mirrors.edge (Agrees.counting h _) hc e

theorem Mirrors.line (h : Mirrors past p) (hg : p.Grounded base) (bytes : List UInt8)
    (hn : (Past.ids ((Element.ofLine? (trimLine bytes)).toList ++ past)).Nodup) :
    Mirrors ((Element.ofLine? (trimLine bytes)).toList ++ past) (p.line bytes) := by
  have blank : Element.ofLine? [] = none := rfl
  have hl : Mirrors past (p.counting fun r => { r with lines := r.lines + 1 }) :=
    Agrees.counting h _
  have hg : Grounded base (p.counting fun r => { r with lines := r.lines + 1 }) :=
    ⟨hg.live, hg.keeps, hg.names, hg.path⟩
  unfold Stage.line
  split
  next ht =>
    rw [ht, blank]
    exact hl
  next =>
    split
    next he =>
      rw [he]
      exact Agrees.counting hl _
    next e he =>
      rw [he] at hn ⊢
      exact hl.element hg e hn

theorem ids_append (past more : Past) : Past.ids (more ++ past) = Past.ids more ++ Past.ids past :=
  List.filterMap_append

theorem Mirrors.lines (h : Mirrors past p) (hg : p.Grounded base) (lines : List (List UInt8))
    (hn : (Past.ids ((lines.filterMap fun bytes =>
      Element.ofLine? (trimLine bytes)).reverse ++ past)).Nodup) :
    Mirrors ((lines.filterMap fun bytes => Element.ofLine? (trimLine bytes)).reverse ++ past)
      (lines.foldl Stage.line p) := by
  induction lines generalizing past p with
  | nil => exact h
  | cons bytes rest ih =>
    have hsplit : ((bytes :: rest).filterMap fun bytes => Element.ofLine? (trimLine bytes)).reverse
        ++ past = (rest.filterMap fun bytes => Element.ofLine? (trimLine bytes)).reverse ++
          ((Element.ofLine? (trimLine bytes)).toList ++ past) := by
      rw [List.filterMap_cons]
      cases Element.ofLine? (trimLine bytes) <;> simp
    rw [hsplit] at hn ⊢
    have hn' : (Past.ids ((Element.ofLine? (trimLine bytes)).toList ++ past)).Nodup := by
      rw [ids_append] at hn
      exact (List.nodup_append.mp hn).2.1
    exact ih (h.line hg bytes hn') ((grounded_kept base).line bytes hg) hn

theorem mirrors_start {s : Store} (h : s.Scoped) (about : RunMeta) (createdAt : Int) :
    Mirrors [] ⟨.start (s.runs.last + 1), s.withRun about createdAt⟩ := by
  have hrun : ∀ {id}, s.documentRun? id ≠ some (s.runs.last + 1) := by
    intro id hd
    obtain ⟨d, hget, hr⟩ := Table.view_eq_some_iff.mp hd
    exact h.ordered.runs.ne_next (h.documents _ (Table.mem_of_get? hget)) hr
  have hranges : (⟨.start (s.runs.last + 1), s.withRun about createdAt⟩ : Stage).ranges = [] := by
    refine List.filter_eq_nil_iff.mpr fun r _ => ?_
    rw [beq_iff_eq]
    exact hrun
  have hitems : ∀ bucket, (s.withRun about createdAt).definitionsIn (s.runs.last + 1) bucket =
      [] := by
    intro bucket
    refine List.filterMap_eq_nil_iff.mpr fun r hr => if_neg fun hc => ?_
    have hi := h.definitionItems r hr
    rw [hc.1] at hi
    exact hrun hi.ofRun
  exact {
    documents := fun _ => rfl
    texts := fun _ => rfl
    kinds := fun _ => rfl
    resultSets := fun _ => rfl
    resultSetOnce := fun hid => by cases hid
    contents := fun hid => by cases hid
    unclaimed := fun hid => by cases hid
    claimed := fun hid => by cases hid
    claimedOnce := fun hid => by cases hid
    seen := fun hs => by cases hs
    rows := by rw [hranges]; exact .nil
    definitionItems := hitems }

end Stage

theorem mirrors_withDump {s : Store} (h : s.Scoped) (about : RunMeta) (createdAt : Int)
    {stream : ByteStream} (hn : (stream.records.filterMap Element.vertexId?).Nodup) :
    Stage.Mirrors stream.records.reverse (stream.lines.foldl Stage.line
      ⟨.start (s.runs.last + 1), s.withRun about createdAt⟩) := by
  have hids : (Past.ids (stream.records.reverse ++ [])).Nodup := by
    rw [List.append_nil, Past.ids, List.filterMap_reverse]
    exact (List.reverse_perm _).nodup_iff.mpr hn
  have hend := (Stage.mirrors_start h about createdAt).lines
    (Stage.grounded_start h about createdAt) stream.lines hids
  rwa [List.append_nil] at hend

theorem navigation_derived (s : Store) (run : Int) (place : Place) :
    (s.derived run).hoverAt? place = s.hoverAt? place ∧
      (s.derived run).definitionsAt place = s.definitionsAt place := by
  have same : ∀ (s : Store) (pass : Pass),
      (s.withPass run pass).hoverAt? place = s.hoverAt? place ∧
        (s.withPass run pass).definitionsAt place = s.definitionsAt place := fun _ _ => ⟨rfl, rfl⟩
  unfold Store.derived
  simp only [(same _ _).1, (same _ _).2, and_self]

/-- If a dump whose ids are distinct is stored as a run, asking for the text or the definitions
at a position of it answers what a direct reading of the dump says, and nothing exactly if a hop
on the way is missing. -/
theorem navigation_reads_dump {s after : Store} {settings : IngestSettings} {about : RunMeta}
    {stream : ByteStream} {access : Access} {report : Report} (hs : Reachable s)
    (hn : (stream.records.filterMap Element.vertexId?).Nodup)
    (h : ingest settings about stream access s = (.ok report, after))
    (uri : String) (p : Position) :
    let past : Past := stream.records.reverse
    after.hoverAt? ⟨report.run, uri, p⟩ = past.hoverAt? uri p ∧
    after.definitionsAt ⟨report.run, uri, p⟩ = past.definitionsAt uri p ∧
    (after.hoverAt? ⟨report.run, uri, p⟩ = none ↔
      ¬ ∃ c resultSet text, Claim.innermost? past.claims uri p = some c ∧
        past.resultSet? c.range = some resultSet ∧ past.hover? resultSet = some text) ∧
    (after.definitionsAt ⟨report.run, uri, p⟩ = [] ↔
      ¬ ∃ c resultSet bucket l, Claim.innermost? past.claims uri p = some c ∧
        past.resultSet? c.range = some resultSet ∧ past.definitions? resultSet = some bucket ∧
        l ∈ past.definitionsIn bucket) := by
  intro past
  have hscoped := hs.scoped
  obtain ⟨hrun, createdAt, ha⟩ := ingest_ok_cases h
  have hm := mirrors_withDump hscoped about createdAt hn
  have hg := grounded_withDump hscoped about createdAt stream
  have hnumber := run_withDump s about createdAt stream
  have hhover : after.hoverAt? ⟨report.run, uri, p⟩ = past.hoverAt? uri p := by
    rw [← hm.hoverAt hg uri p, hrun, hnumber]
    rcases ha with rfl | rfl
    · rfl
    · exact (navigation_derived _ _ _).1
  have hdefinitions : after.definitionsAt ⟨report.run, uri, p⟩ = past.definitionsAt uri p := by
    rw [← hm.definitionsAt hg uri p, hrun, hnumber]
    rcases ha with rfl | rfl
    · rfl
    · exact (navigation_derived _ _ _).2
  refine ⟨hhover, hdefinitions, ?_, ?_⟩
  · rw [hhover]
    exact Past.hoverAt?_eq_none_iff
  · rw [hdefinitions]
    exact Past.definitionsAt_eq_nil_iff

/-- The text and the definition of the function in the sample. -/
theorem sample_navigation :
    sampleStore.hoverAt? ⟨1, "a", ⟨0, 5⟩⟩ = some "f" ∧
      sampleStore.definitionsAt ⟨1, "a", ⟨0, 5⟩⟩ = [⟨"a", .ofCoords 0 4 0 7⟩] := by
  have read : (sampleDump.records.filterMap Element.vertexId?).Nodup ∧
      Past.hoverAt? sampleDump.records.reverse "a" ⟨0, 5⟩ = some "f" ∧
      Past.definitionsAt sampleDump.records.reverse "a" ⟨0, 5⟩ =
        [⟨"a", .ofCoords 0 4 0 7⟩] := by decide +kernel
  have nav := navigation_reads_dump .empty read.1 ingest_sample "a" ⟨0, 5⟩
  exact ⟨nav.1.trans read.2.1, nav.2.1.trans read.2.2⟩

end SymbolAtlas
