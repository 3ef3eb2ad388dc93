import SymbolAtlas.Proofs.Isolation
import SymbolAtlas.Proofs.RenamedDump

namespace SymbolAtlas

/-- A map of 64-bit numbers as one of all numbers, which leaves the others as they are. -/
def widened (f : Int64 → Int64) (n : Int) : Int :=
  if (Int64.ofInt n).toInt = n then (f (Int64.ofInt n)).toInt else n

theorem widened_injective {f : Int64 → Int64} (h : Function.Injective f) :
    Function.Injective (widened f) := by
  -- A number that is not of 64 bits is not the image of one that is.
  have outside : ∀ {m : Int64} {n : Int}, (Int64.ofInt n).toInt ≠ n → m.toInt ≠ n := by
    intro m n hn he
    rw [← he, Int64.ofInt_toInt] at hn
    exact hn rfl
  intro m n he
  unfold widened at he
  split at he
  next hm =>
    split at he
    next hn =>
      have hsame := h (Int64.toInt_inj.mp he)
      rw [← hm, ← hn, hsame]
    next hn => exact absurd he (outside hn)
  next hm =>
    split at he
    next hn => exact absurd he.symm (outside hm)
    next => exact he

/-- Nothing stands in the way of writing. -/
structure Access.Unfailing (access : Access) : Prop where
  fails : ∀ table event s, access.fails table event s = none
  commitFails : ∀ s, access.commitFails s = none

/-- What an occurrence is found by, whatever its role is. -/
def Occurrence.key (o : Occurrence) : Int × Int × Int × Int :=
  (o.run, o.symbol, o.document, o.range)

namespace Store

variable {s : Store} {run : Int} {name : Int → Int}

theorem bucketName_of_ne {owner : Int} (h : owner ≠ run) : bucketName run name owner = id :=
  if_neg h

theorem renamed_of_absent (h : s.Scoped) (hr : s.runs.has run ≠ true) : s.renamed run name = s := by
  have other : ∀ {owner}, s.runs.has owner = true → bucketName run name owner = id :=
    fun hlive => bucketName_of_ne fun he => hr (he ▸ hlive)
  have hsets : s.resultSets.modifyAll (.renamed run name) = s.resultSets := by
    refine Table.modifyAll_eq_self fun r hm => ?_
    simp [ResultSet.renamed, other (h.resultSets r hm)]
  have hdefinitions : s.definitionItems.modifyAll (.renamed run name) = s.definitionItems := by
    refine Table.modifyAll_eq_self fun r hm => ?_
    simp [Item.renamed, other ((h.definitionItems r hm).live h)]
  have hreferences : s.referenceItems.modifyAll (.renamed run name) = s.referenceItems := by
    refine Table.modifyAll_eq_self fun r hm => ?_
    simp [ReferenceItem.renamed, Item.renamed, other ((h.referenceItems r hm).live h)]
  simp only [renamed, hsets, hdefinitions, hreferences]

section Answers

variable (h : s.Scoped) (hn : Function.Injective name) (place : Place)

theorem resultSetAt?_renamed :
    (s.renamed run name).resultSetAt? place =
      (s.resultSetAt? place).map (ResultSet.renamed run name) := by
  have hi : (s.renamed run name).innermost? place.run place.uri place.position =
      s.innermost? place.run place.uri place.position := rfl
  have hg : ∀ k, (s.renamed run name).resultSets.get? k =
      (s.resultSets.get? k).map (ResultSet.renamed run name) :=
    fun k => Table.get?_modifyAll s.resultSets k _
  unfold resultSetAt?
  rw [hi]
  cases s.innermost? place.run place.uri place.position with
  | none => rfl
  | some r =>
    cases hk : r.range.resultSet with
    | none => simp [hk]
    | some k => simp [hk, hg]

theorem hoverAt?_renamed : (s.renamed run name).hoverAt? place = s.hoverAt? place := by
  unfold hoverAt?
  rw [resultSetAt?_renamed]
  cases s.resultSetAt? place <;> rfl

theorem monikerAt?_renamed : (s.renamed run name).monikerAt? place = s.monikerAt? place := by
  unfold monikerAt?
  rw [resultSetAt?_renamed]
  cases s.resultSetAt? place <;> rfl

include h in
theorem bucketAt?_renamed (kind : BucketKind) :
    (s.renamed run name).bucketAt? place kind =
      (s.bucketAt? place kind).map (bucketName run name place.run) := by
  unfold bucketAt?
  rw [resultSetAt?_renamed]
  cases hr : s.resultSetAt? place with
  | none => rfl
  | some r =>
    obtain ⟨-, -, hrun⟩ := resultSetAt?_mem h hr
    simp only [Option.map_some, Option.bind_some, ResultSet.bucket?_renamed, hrun]

include hn

theorem item_renamed_iff (i : Item) (owner bucket : Int) :
    ((i.renamed run name).run = owner ∧
        (i.renamed run name).bucket = bucketName run name owner bucket) ↔
      i.run = owner ∧ i.bucket = bucket := by
  refine and_congr_right fun he => ?_
  have hrun : i.run = owner := he
  rw [Item.renamed, hrun]
  exact (bucketName_injective hn run owner).eq_iff

theorem definitionsIn_renamed (owner bucket : Int) :
    (s.renamed run name).definitionsIn owner (bucketName run name owner bucket) =
      s.definitionsIn owner bucket := by
  have hrows : (s.renamed run name).definitionItems.rows =
      s.definitionItems.rows.map fun r => (r.1, r.2.renamed run name) := rfl
  unfold definitionsIn
  rw [hrows, List.filterMap_map]
  refine List.filterMap_congr fun r _ => ?_
  simp only [Function.comp_apply, item_renamed_iff hn]
  rfl

theorem referencesIn_renamed (owner bucket : Int) (includeDefinitions : Bool) :
    (s.renamed run name).referencesIn owner (bucketName run name owner bucket)
        includeDefinitions =
      s.referencesIn owner bucket includeDefinitions := by
  have hrows : (s.renamed run name).referenceItems.rows =
      s.referenceItems.rows.map fun r => (r.1, r.2.renamed run name) := rfl
  unfold referencesIn
  rw [hrows, List.filterMap_map]
  refine List.filterMap_congr fun r _ => ?_
  have hflag : (r.2.renamed run name).isDefinition = r.2.isDefinition := rfl
  have hin : ∀ p, ((r.2.renamed run name).run = owner ∧
        (r.2.renamed run name).bucket = bucketName run name owner bucket ∧ p) ↔
      r.2.run = owner ∧ r.2.bucket = bucket ∧ p := by
    intro p
    rw [← and_assoc, ← and_assoc]
    exact and_congr_left' (item_renamed_iff hn r.2.toItem owner bucket)
  simp only [Function.comp_apply, hin, hflag]
  rfl

include h

theorem definitionsAt_renamed :
    (s.renamed run name).definitionsAt place = s.definitionsAt place := by
  unfold definitionsAt
  rw [bucketAt?_renamed h]
  cases s.bucketAt? place .definitions with
  | none => rfl
  | some bucket => exact definitionsIn_renamed hn place.run bucket

theorem referencesAt_renamed (includeDefinitions : Bool) :
    (s.renamed run name).referencesAt place includeDefinitions =
      s.referencesAt place includeDefinitions := by
  unfold referencesAt
  rw [bucketAt?_renamed h]
  cases s.bucketAt? place .references with
  | none => rfl
  | some bucket => exact referencesIn_renamed hn place.run bucket includeDefinitions

theorem targetsAt_renamed (kind : BucketKind) :
    (s.renamed run name).targetsAt place kind = s.targetsAt place kind := by
  unfold targetsAt
  rw [bucketAt?_renamed h]
  cases s.bucketAt? place kind with
  | none => rfl
  | some bucket =>
    simp only [Option.map_some, contentsOf, definitionsIn_renamed hn, referencesIn_renamed hn]

end Answers

end Store

theorem StoreRenaming.keeps_grounded (c : StoreRenaming) (base : Store) :
    c.Keeps fun p => p.Grounded base ∧ p.Awaits c.run where
  kept := (Stage.grounded_kept base).and (Stage.awaits_kept c.run)
  run h := h.2.run
  owns := by
    rintro p id row ⟨hg, hrun⟩ hr r hm rfl
    obtain ⟨a, ha, he⟩ := Table.view_eq_some_iff.mp (hg.names.resultSetOf? hr)
    -- No other row has the number of the result set that is known.
    have hsame := (hg.keeps.ordered.resultSets.get?_eq_some_iff.mpr hm).symm.trans ha
    rw [Option.some.inj hsame, he, hrun.run]
    exact if_pos rfl

theorem weave_nil (lines : List (List UInt8)) : weave (fun _ => []) lines = lines := by
  induction lines with
  | nil => rfl
  | cons line rest ih => exact congrArg (line :: ·) ih

theorem insertedBefore_nil (number : Nat) : insertedBefore (fun _ => []) number = [] := by
  simp [insertedBefore]

theorem renamed_result (stream : ByteStream) (result : Except IngestError Report) :
    (result.map (·.withNoise (stream.noise fun _ => []))).mapError
      (.renumbered (shifted fun _ => [])) = result := by
  have hnoise : stream.noise (fun _ => []) = [] := by
    rw [ByteStream.noise, insertedBefore_nil]
    rfl
  have hshift : shifted (fun _ => []) = id := by
    funext number
    rw [shifted, insertedBefore_nil]
    rfl
  rw [hnoise, hshift]
  cases result with
  | ok report => rfl
  | error e => cases e <;> rfl

theorem ingest_renamed {s : Store} (h : s.Scoped) {access : Access} (ha : access.Unfailing)
    (settings : IngestSettings) (about : RunMeta) {name : Int → Int}
    (hn : Function.Injective name) {stream renamed : ByteStream}
    (hl : List.Forall₂ (RenamedLine name) stream.lines renamed.lines)
    (hf : renamed.failure = stream.failure) :
    ingest settings about renamed access s =
      ((ingest settings about stream access s).1,
        (ingest settings about stream access s).2.renamed (s.runs.last + 1) name) := by
  let c := StoreRenaming.ofBuckets (s.runs.last + 1) hn
  have halike : access.Alike c.store access :=
    ⟨rfl, rfl, rfl, fun _ _ _ => by rw [ha.fails, ha.fails],
      fun _ => by rw [ha.commitFails, ha.commitFails]⟩
  have hnew : s.runs.has (s.runs.last + 1) ≠ true := fun hr => h.ordered.runs.ne_next hr rfl
  have hs : c.store s = s := Store.renamed_of_absent h hnew
  have hrun : ∀ createdAt, c.store (s.withRun about createdAt) = s.withRun about createdAt :=
    fun createdAt => congrArg (fun t : Store => t.withRun about createdAt) hs
  have ht : RenamedStream c.name (fun _ => []) stream renamed :=
    ⟨⟨renamed.lines, hl, (weave_nil _).symm⟩, fun _ _ _ hm => absurd hm List.not_mem_nil, hf⟩
  have hstart := Stage.grounded_start h about (about.createdAt.getD access.clock)
  have hc := ingest_carried halike (c.keeps_grounded _) ht settings hs (hrun _)
    ⟨hstart, rfl, rfl, rfl, rfl⟩
  rw [Action.Carried, hs, renamed_result] at hc
  exact hc

/-- An ingest of the same dump with other ids, as long as no two of them become the same, reports
the same and writes the same rows, but for the names of buckets, and it finds occurrences in the
same places.  So whatever is asked about a position has the same answer. -/
theorem ids_are_only_names {s : Store} (h : s.Scoped) {access : Access} (ha : access.Unfailing)
    (settings : IngestSettings) (about : RunMeta) {f : Int64 → Int64}
    (hf : Function.Injective f) {stream renamed : ByteStream}
    (hl : List.Forall₂ (RenamedLine (widened f)) stream.lines renamed.lines)
    (hend : renamed.failure = stream.failure) :
    let first := ingest settings about stream access s
    let second := ingest settings about renamed access s
    second.1 = first.1 ∧
    { second.2 with occurrences := first.2.occurrences } =
      first.2.renamed (s.runs.last + 1) (widened f) ∧
    (∀ key, key ∈ second.2.occurrences.map Occurrence.key ↔
      key ∈ first.2.occurrences.map Occurrence.key) ∧
    ∀ place,
      second.2.definitionsAt place = first.2.definitionsAt place ∧
      (∀ includeDefinitions, second.2.referencesAt place includeDefinitions =
        first.2.referencesAt place includeDefinitions) ∧
      second.2.typeDefinitionsAt place = first.2.typeDefinitionsAt place ∧
      second.2.implementationsAt place = first.2.implementationsAt place ∧
      second.2.hoverAt? place = first.2.hoverAt? place ∧
      second.2.monikerAt? place = first.2.monikerAt? place := by
  intro first second
  have hn := widened_injective hf
  have hsecond : second = (first.1, first.2.renamed (s.runs.last + 1) (widened f)) :=
    ingest_renamed h ha settings about hn hl hend
  have hscoped : first.2.Scoped := scoped_after h (.ingest settings about stream) access
  rw [hsecond]
  refine ⟨rfl, rfl, fun _ => Iff.rfl, fun place => ?_⟩
  refine ⟨?_, fun includeDefinitions => ?_, ?_, ?_, ?_, ?_⟩
  · exact Store.definitionsAt_renamed hscoped hn place
  · exact Store.referencesAt_renamed hscoped hn place includeDefinitions
  · exact Store.targetsAt_renamed hscoped hn place .typeDefinition
  · exact Store.targetsAt_renamed hscoped hn place .implementation
  · exact Store.hoverAt?_renamed place
  · exact Store.monikerAt?_renamed place

theorem renamedLine_of_records {name : Int → Int} {bytes bytes' : List UInt8} {e : Element}
    (h : Element.ofLine? (trimLine bytes) = some e)
    (h' : Element.ofLine? (trimLine bytes') = some (e.renamed name)) :
    RenamedLine name bytes bytes' where
  blank := by
    have hblank : Element.ofLine? [] = none := rfl
    constructor
    · intro he
      rw [he, hblank] at h'
      cases h'
    · intro he
      rw [he, hblank] at h
      cases h
  record := by rw [h, h', Option.map_some]

theorem element_of_edgeOfLine? {bytes : List UInt8} {e : Edge} (h : edgeOfLine? bytes = some e) :
    Element.ofLine? (trimLine bytes) = some (.edge e) := by
  unfold edgeOfLine? at h
  split at h
  next he =>
    cases h
    exact he
  next => cases h

def resultSetOfLine? (bytes : List UInt8) : Option Int :=
  match Element.ofLine? (trimLine bytes) with
  | some (.vertex (.resultSet id)) => some id
  | _ => none

theorem element_of_resultSetOfLine? {bytes : List UInt8} {id : Int}
    (h : resultSetOfLine? bytes = some id) :
    Element.ofLine? (trimLine bytes) = some (.vertex (.resultSet id)) := by
  unfold resultSetOfLine? at h
  split at h
  next he =>
    cases h
    exact he
  next => cases h

def resultSetLine : List UInt8 := "[\"vertex\",\"resultSet\",9]".toUTF8.toList

/-- A result set and its bucket. -/
def bucketDump : ByteStream := .ofLines [resultSetLine, definitionLine]

def renamedResultSetLine : List UInt8 := "[\"vertex\",\"resultSet\",109]".toUTF8.toList

def renamedDefinitionLine : List UInt8 :=
  "[\"edge\",\"textDocument/definition\",109,106]".toUTF8.toList

/-- The same with ids that are higher by a hundred. -/
def renamedBucketDump : ByteStream := .ofLines [renamedResultSetLine, renamedDefinitionLine]

theorem renamedLine_bucketDump :
    List.Forall₂ (RenamedLine (widened (· + 100))) bucketDump.lines renamedBucketDump.lines := by
  have hset : resultSetOfLine? resultSetLine = some 9 := by decide +kernel
  have hset' : resultSetOfLine? renamedResultSetLine = some 109 := by decide +kernel
  have hedge : edgeOfLine? definitionLine = some (.bucket .definitions 9 6) := by decide +kernel
  have hedge' : edgeOfLine? renamedDefinitionLine = some (.bucket .definitions 109 106) := by
    decide +kernel
  have hnames : widened (· + 100) 9 = 109 ∧ widened (· + 100) 6 = 106 := by decide +kernel
  rw [bucketDump, renamedBucketDump, ByteStream.lines_ofLines (by decide +kernel),
    ByteStream.lines_ofLines (by decide +kernel)]
  refine .cons (renamedLine_of_records (element_of_resultSetOfLine? hset) ?_)
    (.cons (renamedLine_of_records (element_of_edgeOfLine? hedge) ?_) .nil)
  · rw [element_of_resultSetOfLine? hset', Element.renamed, Vertex.renamed, hnames.1]
  · rw [element_of_edgeOfLine? hedge', Element.renamed, Edge.renamed, hnames.1, hnames.2]

/-- The one result set of the two dumps. -/
def bucketTable (bucket : Int) : Table ResultSet :=
  ⟨1, [(1, { run := 1, definitions := some bucket })]⟩

theorem bucket_renamed :
    let first := ingest {} {} bucketDump {} .empty
    let second := ingest {} {} renamedBucketDump {} .empty
    first.2.resultSets = bucketTable 6 ∧ second.1 = first.1 ∧
      second.2.resultSets = bucketTable 106 := by
  intro first second
  have hinjective : Function.Injective fun n : Int64 => n + 100 := fun _ _ he => by simpa using he
  have hfirst : first.2.resultSets = bucketTable 6 := by decide +kernel
  have hsecond : (bucketTable 6).modifyAll (.renamed 1 (widened (· + 100))) = bucketTable 106 := by
    decide +kernel
  have hfree : ({} : Access).Unfailing := ⟨fun _ _ _ => rfl, fun _ => rfl⟩
  obtain ⟨hresult, hstore, -⟩ :=
    ids_are_only_names scoped_empty hfree {} {} hinjective renamedLine_bucketDump rfl
  refine ⟨hfirst, hresult, ?_⟩
  calc second.2.resultSets
      = first.2.resultSets.modifyAll (.renamed 1 (widened (· + 100))) :=
        congrArg Store.resultSets hstore
    _ = bucketTable 106 := by rw [hfirst, hsecond]

end SymbolAtlas
