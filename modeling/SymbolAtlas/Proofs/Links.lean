import SymbolAtlas.Proofs.Grounded
import SymbolAtlas.Proofs.Skipped

namespace SymbolAtlas

namespace Table

variable {α β : Type} {t : Table α} {id j : Int} {f : α → Option β} {change : α → α} {b : β}

theorem bind_get?_insert {row : α} (h : (t.get? id).bind f = some b) :
    ((t.insert row).get? id).bind f = some b := by
  obtain ⟨a, ha, hf⟩ := Option.bind_eq_some_iff.mp h
  exact Option.bind_eq_some_iff.mpr ⟨a, get?_insert_of_some ha, hf⟩

theorem bind_get?_modify_self (h : t.has id = true) (hf : ∀ a, f (change a) = some b) :
    ((t.modify id change).get? id).bind f = some b := by
  obtain ⟨a, ha⟩ := has_iff.mp h
  rw [get?_modify, ha, Option.map_some, if_pos rfl, Option.bind_some, hf]

theorem bind_get?_modify_other (h : id ≠ j ∨ ∀ a, f (change a) = f a) :
    ((t.modify j change).get? id).bind f = (t.get? id).bind f := by
  rw [get?_modify]
  cases t.get? id with
  | none => rfl
  | some a =>
    simp only [Option.map_some, Option.bind_some]
    split
    next hid =>
      rcases h with hne | hf
      · exact absurd hid hne
      · exact hf a
    next => rfl

end Table

/-- The kinds of links, by what they lead to. -/
inductive LinkKind where
  | hover
  | moniker
  | bucket (kind : BucketKind)
  | package
  | resultSet
deriving DecidableEq

/-- A link from one row to another, or to a bucket. -/
structure Link where
  kind : LinkKind
  source : Int
  target : Int
deriving DecidableEq

/-- The links have the same place, so that only one of them can be there. -/
def Link.Replaces (a b : Link) : Prop := a.kind = b.kind ∧ a.source = b.source

instance (a b : Link) : Decidable (a.Replaces b) := inferInstanceAs (Decidable (_ ∧ _))

def Edge.linkKind? : Edge → Option LinkKind
  | next _ _ => some .resultSet
  | moniker _ _ => some .moniker
  | packageInformation _ _ => some .package
  | bucket kind _ _ => some (.bucket kind)
  | hover _ _ => some .hover
  | _ => none

/-- The link between two rows, if both of them are known. -/
def joined? (kind : LinkKind) (source target : Option Int) : Option Link :=
  match source, target with
  | some a, some b => some ⟨kind, a, b⟩
  | _, _ => none

namespace Store

variable {s : Store} {l m : Link}

/-- Where a link of a kind leads from a row.  Packages are links of monikers, result sets those of
ranges, and all others belong to result sets. -/
def link? (s : Store) (kind : LinkKind) (source : Int) : Option Int :=
  match kind with
  | .hover => (s.resultSets.get? source).bind ResultSet.hover
  | .moniker => (s.resultSets.get? source).bind ResultSet.moniker
  | .bucket kind => (s.resultSets.get? source).bind fun r => r.bucket? kind
  | .package => (s.monikers.get? source).bind Moniker.package
  | .resultSet => (s.ranges.get? source).bind Range.resultSet

def Holds (s : Store) (l : Link) : Prop := s.link? l.kind l.source = some l.target

instance (s : Store) (l : Link) : Decidable (s.Holds l) := inferInstanceAs (Decidable (_ = _))

def HasSource (s : Store) (l : Link) : Prop :=
  match l.kind with
  | .package => s.monikers.has l.source = true
  | .resultSet => s.ranges.has l.source = true
  | _ => s.resultSets.has l.source = true

def setting (s : Store) (l : Link) : Store :=
  match l.kind with
  | .hover => s.settingHover l.source l.target
  | .moniker => s.settingMoniker l.source l.target
  | .bucket kind => s.settingBucket l.source kind l.target
  | .package => s.settingPackage l.source l.target
  | .resultSet => s.settingResultSet l.source l.target

theorem bucket?_setBucket_self (r : ResultSet) (bucket : Int) (kind : BucketKind) :
    (r.setBucket bucket kind).bucket? kind = some bucket := by
  cases kind <;> rfl

theorem bucket?_setBucket_other (r : ResultSet) (bucket : Int) {kind other : BucketKind}
    (h : kind ≠ other) : (r.setBucket bucket kind).bucket? other = r.bucket? other := by
  cases kind <;> cases other <;> first | rfl | exact absurd rfl h

theorem holds_setting_self (h : s.HasSource l) : (s.setting l).Holds l := by
  obtain ⟨kind, source, target⟩ := l
  cases kind with
  | bucket kind =>
    exact Table.bind_get?_modify_self h fun r => bucket?_setBucket_self r target kind
  | _ => exact Table.bind_get?_modify_self h fun _ => rfl

theorem holds_setting_other (h : s.Holds l) (hn : ¬ m.Replaces l) : (s.setting m).Holds l := by
  obtain ⟨kind, source, target⟩ := l
  obtain ⟨kind', source', target'⟩ := m
  refine Eq.trans ?_ h
  by_cases hk : kind' = kind
  · subst hk
    have hne : source ≠ source' := fun hs => hn ⟨rfl, hs.symm⟩
    cases kind' <;> exact Table.bind_get?_modify_other (.inl hne)
  · -- Links of other kinds are in other columns, if not in other tables.
    cases kind' with
    | hover =>
      cases kind with
      | hover => exact absurd rfl hk
      | package => rfl
      | resultSet => rfl
      | _ => exact Table.bind_get?_modify_other (.inr fun _ => rfl)
    | moniker =>
      cases kind with
      | moniker => exact absurd rfl hk
      | package => rfl
      | resultSet => rfl
      | _ => exact Table.bind_get?_modify_other (.inr fun _ => rfl)
    | bucket kind' =>
      cases kind with
      | bucket kind =>
        have hkind : kind' ≠ kind := fun he => hk (he ▸ rfl)
        exact Table.bind_get?_modify_other
          (.inr fun r => bucket?_setBucket_other r target' hkind)
      | package => rfl
      | resultSet => rfl
      | hover =>
        exact Table.bind_get?_modify_other (.inr fun r => (setBucket_other r target' kind').2.1)
      | moniker =>
        exact Table.bind_get?_modify_other (.inr fun r => (setBucket_other r target' kind').2.2)
    | package =>
      cases kind with
      | package => exact absurd rfl hk
      | _ => rfl
    | resultSet =>
      cases kind with
      | resultSet => exact absurd rfl hk
      | _ => rfl

def KeepsLinks (s t : Store) : Prop := ∀ l, s.Holds l → t.Holds l

theorem KeepsLinks.refl (s : Store) : s.KeepsLinks s := fun _ h => h

theorem keepsLinks_withResultSet (s : Store) (run : Int) : s.KeepsLinks (s.withResultSet run) := by
  rintro ⟨kind, source, target⟩ h
  cases kind with
  | package => exact h
  | resultSet => exact h
  | _ => exact Table.bind_get?_insert h

theorem keepsLinks_withMoniker (s : Store) (run : Int) (scheme identifier : String)
    (kind : Option String) (package : Option Int) :
    s.KeepsLinks (s.withMoniker run scheme identifier kind package) := by
  rintro ⟨kind, source, target⟩ h
  cases kind with
  | package => exact Table.bind_get?_insert h
  | _ => exact h

theorem keepsLinks_withRange (s : Store) (document : Int) (span : Span) (resultSet : Option Int) :
    s.KeepsLinks (s.withRange document span resultSet) := by
  rintro ⟨kind, source, target⟩ h
  cases kind with
  | resultSet => exact Table.bind_get?_insert h
  | _ => exact h

end Store

namespace Stage

open Store

variable {base : Store} {p : Stage} {e : Edge} {l : Link}

/-- The link that an edge writes, if its ends stand for rows. -/
def linkOf? (p : Stage) : Edge → Option Link
  | .next outV inV =>
    match p.known.resultSets.get? inV, p.known.unclaimed.get? outV, p.known.claimed.get? outV with
    | some resultSet, none, some range => some ⟨.resultSet, range.row, resultSet⟩
    | _, _, _ => none
  | .moniker outV inV =>
    joined? .moniker (p.known.resultSetOf? outV) (p.known.monikers.get? inV)
  | .packageInformation outV inV =>
    joined? .package (p.known.monikers.get? outV) (p.known.packages.get? inV)
  | .bucket kind outV inV => joined? (.bucket kind) (p.known.resultSetOf? outV) (some inV)
  | .hover outV inV => joined? .hover (p.known.resultSetOf? outV) (p.known.hovers.get? inV)
  | _ => none

theorem keepsLinks_vertex (p : Stage) (v : Vertex) : p.store.KeepsLinks (p.vertex v).store := by
  cases v with
  | resultSet id => exact keepsLinks_withResultSet p.store p.run
  | moniker id scheme identifier kind package => exact keepsLinks_withMoniker p.store _ _ _ _ _
  | _ => exact .refl p.store

theorem keepsLinks_claims (document : Int) (ids : List Int) (p : Stage) :
    p.store.KeepsLinks (ids.foldl (claim document) p).store := by
  refine List.foldlRecOn (motive := fun q : Stage => p.store.KeepsLinks q.store) ids
    (claim document) (.refl p.store) fun q hq id _ => ?_
  unfold claim
  split
  next => exact hq
  next => exact fun l hl => keepsLinks_withRange q.store _ _ _ l (hq l hl)

theorem keepsLinks_items (bucket : Int) (property : Option String) (ids : List Int) (p : Stage) :
    p.store.KeepsLinks (ids.foldl (item bucket property) p).store := by
  refine List.foldlRecOn (motive := fun q : Stage => p.store.KeepsLinks q.store) ids
    (item bucket property) (.refl p.store) fun q hq id _ => ?_
  unfold item
  split
  next => exact hq
  next =>
    dsimp only
    split <;> exact hq

theorem joined_links (p : Stage) (kind : LinkKind) (source target : Option Int) :
    (∃ l, joined? kind source target = some l ∧
      (match source, target with
        | some a, some b => p.writing (p.store.setting ⟨kind, a, b⟩)
        | _, _ => p.dangling).store = p.store.setting l) ∨
    joined? kind source target = none ∧ p.store.KeepsLinks
      (match source, target with
        | some a, some b => p.writing (p.store.setting ⟨kind, a, b⟩)
        | _, _ => p.dangling).store := by
  cases source with
  | none => exact .inr ⟨rfl, .refl p.store⟩
  | some a =>
    cases target with
    | none => exact .inr ⟨rfl, .refl p.store⟩
    | some b => exact .inl ⟨_, rfl, rfl⟩

theorem resultSetOf?_learnKind (k : Known) (bucket id : Int) (kind : BucketKind) :
    (k.learnKind bucket kind).resultSetOf? id = k.resultSetOf? id := by
  rw [Known.learnKind_eq]
  rfl

theorem edge_links (p : Stage) (e : Edge) :
    (∃ l, p.linkOf? e = some l ∧ (p.edge e).store = p.store.setting l) ∨
      p.linkOf? e = none ∧ p.store.KeepsLinks (p.edge e).store := by
  cases e with
  | contains outV inVs =>
    refine .inr ⟨rfl, ?_⟩
    simp only [edge]
    split
    next => exact .refl p.store
    next document _ => exact keepsLinks_claims document inVs p
  | next outV inV =>
    simp only [edge, next, linkOf?]
    cases p.known.resultSets.get? inV with
    | none => exact .inr ⟨rfl, .refl p.store⟩
    | some resultSet =>
      cases p.known.unclaimed.get? outV with
      | some range => exact .inr ⟨rfl, .refl p.store⟩
      | none =>
        cases p.known.claimed.get? outV with
        | some range => exact .inl ⟨_, rfl, rfl⟩
        | none =>
          refine .inr ⟨rfl, ?_⟩
          dsimp only
          split <;> exact .refl p.store
  | moniker outV inV => exact joined_links p .moniker _ _
  | packageInformation outV inV => exact joined_links p .package _ _
  | bucket kind outV inV =>
    have hlearned := resultSetOf?_learnKind p.known inV outV kind
    simp only [edge, bucket, linkOf?, learn, known, Ingestion.learn, hlearned]
    cases p.known.resultSetOf? outV with
    | none => exact .inr ⟨rfl, .refl p.store⟩
    | some resultSet => exact .inl ⟨_, rfl, rfl⟩
  | hover outV inV => exact joined_links p .hover _ _
  | item outV inVs inV property => exact .inr ⟨rfl, keepsLinks_items outV property _ p⟩
  | other => exact .inr ⟨rfl, .refl p.store⟩

theorem joined?_source {kind : LinkKind} {source target : Option Int}
    (h : joined? kind source target = some l) : l.kind = kind ∧ source = some l.source := by
  unfold joined? at h
  split at h
  next =>
    cases h
    exact ⟨rfl, rfl⟩
  next => cases h

theorem linkKind?_of_link (hl : p.linkOf? e = some l) : e.linkKind? = some l.kind := by
  cases e with
  | contains => cases hl
  | next outV inV =>
    simp only [linkOf?] at hl
    split at hl
    next =>
      cases hl
      rfl
    next => cases hl
  | item => cases hl
  | other => cases hl
  | _ => exact congrArg some (joined?_source hl).1.symm

theorem Grounded.hasSource (h : p.Grounded base) (hl : p.linkOf? e = some l) :
    p.store.HasSource l := by
  unfold Store.HasSource
  cases e with
  | next outV inV =>
    simp only [linkOf?] at hl
    split at hl
    next hc =>
      cases hl
      exact Table.has_of_view (h.names.claimed hc).1.ofDocument
    next => cases hl
  | moniker outV inV =>
    obtain ⟨hkind, hsource⟩ := joined?_source hl
    rw [hkind]
    exact Table.has_of_view (h.names.resultSetOf? hsource)
  | packageInformation outV inV =>
    obtain ⟨hkind, hsource⟩ := joined?_source hl
    rw [hkind]
    exact Table.has_of_view (h.names.monikers hsource)
  | bucket kind outV inV =>
    obtain ⟨hkind, hsource⟩ := joined?_source hl
    rw [hkind]
    exact Table.has_of_view (h.names.resultSetOf? hsource)
  | hover outV inV =>
    obtain ⟨hkind, hsource⟩ := joined?_source hl
    rw [hkind]
    exact Table.has_of_view (h.names.resultSetOf? hsource)
  | _ => cases hl

theorem Grounded.link_written (h : p.Grounded base) (hl : p.linkOf? e = some l) :
    (p.edge e).store.Holds l := by
  rcases p.edge_links e with ⟨m, hm, hstore⟩ | ⟨hnone, -⟩
  · cases Option.some.inj (hl.symm.trans hm)
    rw [hstore]
    exact holds_setting_self (h.hasSource hl)
  · rw [hnone] at hl
    cases hl

end Stage

def vertexOfLine? (bytes : List UInt8) : Option Vertex :=
  match Element.ofLine? (trimLine bytes) with
  | some (.vertex v) => some v
  | _ => none

namespace Stage

variable {p : Stage} {l : Link} {bytes : List UInt8}

/-- The stage in which the edge on a line is applied. -/
def atEdge (p : Stage) : Stage :=
  (p.counting fun r => { r with lines := r.lines + 1 }).counting fun r =>
    { r with edges := r.edges + 1 }

def atVertex (p : Stage) : Stage :=
  (p.counting fun r => { r with lines := r.lines + 1 }).counting fun r =>
    { r with vertices := r.vertices + 1 }

theorem line_cases (p : Stage) (bytes : List UInt8) :
    (∃ e, edgeOfLine? bytes = some e ∧ p.line bytes = p.atEdge.edge e) ∨
    (∃ v, vertexOfLine? bytes = some v ∧ p.line bytes = p.atVertex.vertex v) ∨
    (edgeOfLine? bytes = none ∧ vertexOfLine? bytes = none) ∧
      ∃ lines malformed, p.line bytes =
        p.counting fun r => { r with lines := lines, malformedLines := malformed } := by
  unfold edgeOfLine? vertexOfLine? line
  cases ht : trimLine bytes with
  | nil => exact .inr (.inr ⟨⟨rfl, rfl⟩, _, _, rfl⟩)
  | cons first rest =>
    cases he : Element.ofLine? (first :: rest) with
    | none => exact .inr (.inr ⟨⟨rfl, rfl⟩, _, _, by simp only [he]; rfl⟩)
    | some element =>
      cases element with
      | vertex v => exact .inr (.inl ⟨v, rfl, by simp only [he]; rfl⟩)
      | edge e => exact .inl ⟨e, rfl, by simp only [he]; rfl⟩

theorem line_vertex {v : Vertex} (hv : vertexOfLine? bytes = some v) (p : Stage) :
    p.line bytes = p.atVertex.vertex v := by
  unfold vertexOfLine? at hv
  split at hv
  next decoded =>
    cases hv
    unfold line
    split
    next ht =>
      rw [ht] at decoded
      cases decoded
    next =>
      simp only [decoded]
      rfl
  next => cases hv

/-- The record on a line writes a link in the place of this one. -/
def Overwrites (p : Stage) (bytes : List UInt8) (l : Link) : Prop :=
  ∃ m ∈ (edgeOfLine? bytes).bind p.linkOf?, m.Replaces l

instance (p : Stage) (bytes : List UInt8) (l : Link) : Decidable (p.Overwrites bytes l) :=
  inferInstanceAs (Decidable (∃ m ∈ _, _))

theorem line_keeps_link (h : p.store.Holds l) (hn : ¬ p.Overwrites bytes l) :
    (p.line bytes).store.Holds l := by
  rcases p.line_cases bytes with ⟨e, he, hline⟩ | ⟨v, -, hline⟩ | ⟨-, _, _, hline⟩
  · rw [hline]
    rcases edge_links p.atEdge e with ⟨m, hm, hstore⟩ | ⟨-, hkeeps⟩
    · rw [hstore]
      refine Store.holds_setting_other h fun hr => hn ⟨m, ?_, hr⟩
      rw [he]
      exact hm
    · exact hkeeps l h
  · rw [hline]
    exact keepsLinks_vertex p.atVertex v l h
  · rw [hline]
    exact h

/-- None of the lines writes another link in the place of this one. -/
def Leaves (l : Link) : Stage → List (List UInt8) → Prop
  | _, [] => True
  | p, bytes :: rest => ¬ p.Overwrites bytes l ∧ Leaves l (p.line bytes) rest

instance decidableLeaves (l : Link) :
    (p : Stage) → (lines : List (List UInt8)) → Decidable (p.Leaves l lines)
  | _, [] => inferInstanceAs (Decidable True)
  | p, bytes :: rest =>
    have := decidableLeaves l (p.line bytes) rest
    inferInstanceAs (Decidable (¬ p.Overwrites bytes l ∧ Leaves l (p.line bytes) rest))

theorem leaves_of_kinds {lines : List (List UInt8)}
    (h : ∀ line ∈ lines, (edgeOfLine? line).bind Edge.linkKind? ≠ some l.kind) (p : Stage) :
    p.Leaves l lines := by
  induction lines generalizing p with
  | nil => trivial
  | cons bytes rest ih =>
    refine ⟨?_, ih (fun line hl => h line (List.mem_cons_of_mem _ hl)) _⟩
    rintro ⟨m, hm, hkind, -⟩
    obtain ⟨e, he, hlink⟩ := Option.bind_eq_some_iff.mp hm
    apply h bytes List.mem_cons_self
    rw [he, Option.bind_some, linkKind?_of_link hlink, hkind]

/-- A link stays until an edge writes another one in its place. -/
theorem lines_keep_link {lines : List (List UInt8)} (h : p.store.Holds l) (hn : Leaves l p lines) :
    (lines.foldl Stage.line p).store.Holds l := by
  induction lines generalizing p with
  | nil => exact h
  | cons bytes rest ih => exact ih (line_keeps_link h hn.1) hn.2

end Stage

end SymbolAtlas
