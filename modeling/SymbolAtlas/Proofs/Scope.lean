import SymbolAtlas.Proofs.Change
import SymbolAtlas.Proofs.Table

/-!
Scopes of runs: what a row names belongs to the run of the row.
-/

namespace SymbolAtlas

namespace Store

structure Ordered (s : Store) : Prop where
  runs : s.runs.Ordered
  documents : s.documents.Ordered
  hovers : s.hovers.Ordered
  packages : s.packages.Ordered
  monikers : s.monikers.Ordered
  symbols : s.symbols.Ordered
  resultSets : s.resultSets.Ordered
  ranges : s.ranges.Ordered
  definitionItems : s.definitionItems.Ordered
  referenceItems : s.referenceItems.Ordered

variable {s t : Store}

def documentRun? (s : Store) (id : Int) : Option Int := s.documents.view Document.run id

def hoverRun? (s : Store) (id : Int) : Option Int := s.hovers.view Hover.run id

def packageRun? (s : Store) (id : Int) : Option Int := s.packages.view Package.run id

def monikerRun? (s : Store) (id : Int) : Option Int := s.monikers.view Moniker.run id

def resultSetRun? (s : Store) (id : Int) : Option Int := s.resultSets.view ResultSet.run id

def rangeDocument? (s : Store) (id : Int) : Option Int := s.ranges.view Range.document id

/-- A range in a document of a run. -/
structure InRun (s : Store) (run document range : Int) : Prop where
  ofRun : s.documentRun? document = some run
  ofDocument : s.rangeDocument? range = some document

theorem InRun.rows {run document range : Int} (h : s.InRun run document range) :
    ∃ r d, s.ranges.get? range = some r ∧ r.document = document ∧
      s.documents.get? document = some d ∧ d.run = run := by
  obtain ⟨d, hd, hr⟩ := Table.view_eq_some_iff.mp h.ofRun
  obtain ⟨r, hg, he⟩ := Table.view_eq_some_iff.mp h.ofDocument
  exact ⟨r, d, hg, he, hd, hr⟩

/-- A moniker of the run is linked to the symbol. -/
def LinkedFrom (s : Store) (run symbol : Int) : Prop :=
  ∃ l ∈ s.links, l.symbol = symbol ∧ s.monikerRun? l.moniker = some run

/-- Whatever a row names is there and belongs to the run of the row. -/
structure Scoped (s : Store) : Prop where
  ordered : s.Ordered
  documents : ∀ r ∈ s.documents.rows, s.runs.has r.2.run = true
  hovers : ∀ r ∈ s.hovers.rows, s.runs.has r.2.run = true
  packages : ∀ r ∈ s.packages.rows, s.runs.has r.2.run = true
  monikers : ∀ r ∈ s.monikers.rows, s.runs.has r.2.run = true
  resultSets : ∀ r ∈ s.resultSets.rows, s.runs.has r.2.run = true
  packageOf : ∀ r ∈ s.monikers.rows, ∀ p, r.2.package = some p → s.packageRun? p = some r.2.run
  hoverOf : ∀ r ∈ s.resultSets.rows, ∀ h, r.2.hover = some h → s.hoverRun? h = some r.2.run
  monikerOf : ∀ r ∈ s.resultSets.rows, ∀ m, r.2.moniker = some m →
    s.monikerRun? m = some r.2.run
  ranges : ∀ r ∈ s.ranges.rows, ∃ run, s.documentRun? r.2.document = some run ∧
    ∀ k, r.2.resultSet = some k → s.resultSetRun? k = some run
  definitionItems : ∀ r ∈ s.definitionItems.rows, s.InRun r.2.run r.2.document r.2.range
  referenceItems : ∀ r ∈ s.referenceItems.rows, s.InRun r.2.run r.2.document r.2.range
  occurrences : ∀ o ∈ s.occurrences, s.InRun o.run o.document o.range ∧
    s.LinkedFrom o.run o.symbol
  monikerLink : ∀ r ∈ s.monikers.rows, (s.links.filter fun l => l.moniker == r.1).length = 1
  links : ∀ l ∈ s.links, s.monikers.has l.moniker = true ∧ s.symbols.has l.symbol = true

theorem InRun.live (h : s.Scoped) {run document range : Int} (hi : s.InRun run document range) :
    s.runs.has run = true := by
  obtain ⟨d, hd, rfl⟩ := Table.view_eq_some_iff.mp hi.ofRun
  exact h.documents _ (Table.mem_of_get? hd)

/-- Everything that was there is there, in the run and the document it was in. -/
structure Grows (s t : Store) : Prop where
  runs : ∀ {id}, s.runs.has id = true → t.runs.has id = true
  documents : ∀ {id run}, s.documentRun? id = some run → t.documentRun? id = some run
  hovers : ∀ {id run}, s.hoverRun? id = some run → t.hoverRun? id = some run
  packages : ∀ {id run}, s.packageRun? id = some run → t.packageRun? id = some run
  monikers : ∀ {id run}, s.monikerRun? id = some run → t.monikerRun? id = some run
  resultSets : ∀ {id run}, s.resultSetRun? id = some run → t.resultSetRun? id = some run
  ranges : ∀ {id document}, s.rangeDocument? id = some document →
    t.rangeDocument? id = some document
  symbols : ∀ {id}, s.symbols.has id = true → t.symbols.has id = true
  links : ∀ {l}, l ∈ s.links → l ∈ t.links

namespace Grows

theorem refl (s : Store) : Grows s s := ⟨id, id, id, id, id, id, id, id, id⟩

theorem inRun (g : Grows s t) {run document range : Int} (h : s.InRun run document range) :
    t.InRun run document range := ⟨g.documents h.ofRun, g.ranges h.ofDocument⟩

theorem linkedFrom (g : Grows s t) {run symbol : Int} (h : s.LinkedFrom run symbol) :
    t.LinkedFrom run symbol := by
  obtain ⟨l, hl, he, hm⟩ := h
  exact ⟨l, g.links hl, he, g.monikers hm⟩

end Grows

/-- A change after which every row is an old one or names only what was there in its scope. -/
structure Extends (s t : Store) : Prop where
  grows : Grows s t
  ordered : t.Ordered
  documents : ∀ r ∈ t.documents.rows, r ∈ s.documents.rows ∨ s.runs.has r.2.run = true
  hovers : ∀ r ∈ t.hovers.rows, r ∈ s.hovers.rows ∨ s.runs.has r.2.run = true
  packages : ∀ r ∈ t.packages.rows, r ∈ s.packages.rows ∨ s.runs.has r.2.run = true
  monikers : ∀ r ∈ t.monikers.rows, r ∈ s.monikers.rows ∨
    s.runs.has r.2.run = true ∧ ∀ p, r.2.package = some p → s.packageRun? p = some r.2.run
  resultSets : ∀ r ∈ t.resultSets.rows, r ∈ s.resultSets.rows ∨
    s.runs.has r.2.run = true ∧ (∀ h, r.2.hover = some h → s.hoverRun? h = some r.2.run) ∧
      ∀ m, r.2.moniker = some m → s.monikerRun? m = some r.2.run
  ranges : ∀ r ∈ t.ranges.rows, r ∈ s.ranges.rows ∨
    ∃ run, s.documentRun? r.2.document = some run ∧
      ∀ k, r.2.resultSet = some k → s.resultSetRun? k = some run
  definitionItems : ∀ r ∈ t.definitionItems.rows, r ∈ s.definitionItems.rows ∨
    s.InRun r.2.run r.2.document r.2.range
  referenceItems : ∀ r ∈ t.referenceItems.rows, r ∈ s.referenceItems.rows ∨
    s.InRun r.2.run r.2.document r.2.range
  occurrences : ∀ o ∈ t.occurrences, o ∈ s.occurrences ∨
    s.InRun o.run o.document o.range ∧ s.LinkedFrom o.run o.symbol
  monikerLink : ∀ r ∈ t.monikers.rows,
    (∃ a, (r.1, a) ∈ s.monikers.rows ∧
      (t.links.filter fun l => l.moniker == r.1) = s.links.filter fun l => l.moniker == r.1) ∨
    (t.links.filter fun l => l.moniker == r.1).length = 1
  links : ∀ l ∈ t.links, l ∈ s.links ∨
    t.monikers.has l.moniker = true ∧ t.symbols.has l.symbol = true

theorem Extends.refl (h : s.Ordered) : Extends s s where
  grows := .refl s
  ordered := h
  documents _ := .inl
  hovers _ := .inl
  packages _ := .inl
  monikers _ := .inl
  resultSets _ := .inl
  ranges _ := .inl
  definitionItems _ := .inl
  referenceItems _ := .inl
  occurrences _ := .inl
  monikerLink r hr := .inl ⟨r.2, hr, rfl⟩
  links _ := .inl

/-- A row that is an old one keeps to its scope as it did, and a new one names what is still
there. -/
theorem Extends.scoped (e : Extends s t) (h : s.Scoped) : t.Scoped where
  ordered := e.ordered
  documents r hr := e.grows.runs ((e.documents r hr).elim (h.documents r) id)
  hovers r hr := e.grows.runs ((e.hovers r hr).elim (h.hovers r) id)
  packages r hr := e.grows.runs ((e.packages r hr).elim (h.packages r) id)
  monikers r hr := e.grows.runs ((e.monikers r hr).elim (h.monikers r) And.left)
  resultSets r hr := e.grows.runs ((e.resultSets r hr).elim (h.resultSets r) And.left)
  packageOf r hr p hp := by
    rcases e.monikers r hr with ho | ⟨-, hn⟩
    · exact e.grows.packages (h.packageOf r ho p hp)
    · exact e.grows.packages (hn p hp)
  hoverOf r hr k hk := by
    rcases e.resultSets r hr with ho | ⟨-, hn, -⟩
    · exact e.grows.hovers (h.hoverOf r ho k hk)
    · exact e.grows.hovers (hn k hk)
  monikerOf r hr m hm := by
    rcases e.resultSets r hr with ho | ⟨-, -, hn⟩
    · exact e.grows.monikers (h.monikerOf r ho m hm)
    · exact e.grows.monikers (hn m hm)
  ranges r hr := by
    obtain ⟨run, hd, hk⟩ := (e.ranges r hr).elim (h.ranges r) id
    exact ⟨run, e.grows.documents hd, fun k he => e.grows.resultSets (hk k he)⟩
  definitionItems r hr := e.grows.inRun ((e.definitionItems r hr).elim (h.definitionItems r) id)
  referenceItems r hr := e.grows.inRun ((e.referenceItems r hr).elim (h.referenceItems r) id)
  occurrences o ho := by
    obtain ⟨hi, hl⟩ := (e.occurrences o ho).elim (h.occurrences o) id
    exact ⟨e.grows.inRun hi, e.grows.linkedFrom hl⟩
  monikerLink r hr := by
    rcases e.monikerLink r hr with ⟨a, ha, he⟩ | hn
    · rw [he]
      exact h.monikerLink (r.1, a) ha
    · exact hn
  links l hl := by
    rcases e.links l hl with ho | hn
    · obtain ⟨hm, hs⟩ := h.links l ho
      obtain ⟨m, hm⟩ := Table.has_iff.mp hm
      obtain ⟨m', hm', -⟩ := Table.view_eq_some_iff.mp
        (e.grows.monikers (Table.view_eq_some_iff.mpr ⟨m, hm, rfl⟩))
      exact ⟨Table.has_iff.mpr ⟨m', hm'⟩, e.grows.symbols hs⟩
    · exact hn

theorem extends_withRun (h : s.Scoped) (about : RunMeta) (createdAt : Int) :
    Extends s (s.withRun about createdAt) :=
  { Extends.refl h.ordered with
    grows := { Grows.refl s with runs := Table.has_insert }
    ordered := { h.ordered with runs := h.ordered.runs.insert _ } }

theorem extends_describing (h : s.Scoped) (run : Int) (projectRoot lsifVersion : Option String) :
    Extends s (s.describing run projectRoot lsifVersion) :=
  { Extends.refl h.ordered with
    grows := { Grows.refl s with runs := fun hr => (Table.has_modify _ _).trans hr }
    ordered := { h.ordered with
      runs := by
        simp only [describing]
        exact h.ordered.runs.modify _ _ } }

theorem extends_withDocument (h : s.Scoped) {run : Int} (hr : s.runs.has run = true)
    (uri : String) (languageId : Option String) :
    Extends s (s.withDocument run uri languageId) :=
  { Extends.refl h.ordered with
    grows := { Grows.refl s with documents := Table.view_insert }
    ordered := { h.ordered with documents := h.ordered.documents.insert _ }
    documents := fun r hm => (Table.mem_insert_iff.mp hm).imp_right fun he => by
      rw [he]
      exact hr }

theorem extends_withHover (h : s.Scoped) {run : Int} (hr : s.runs.has run = true)
    (contents : String) : Extends s (s.withHover run contents) :=
  { Extends.refl h.ordered with
    grows := { Grows.refl s with hovers := Table.view_insert }
    ordered := { h.ordered with hovers := h.ordered.hovers.insert _ }
    hovers := fun r hm => (Table.mem_insert_iff.mp hm).imp_right fun he => by
      rw [he]
      exact hr }

theorem extends_withPackage (h : s.Scoped) {run : Int} (hr : s.runs.has run = true)
    (name : String) (version manager : Option String) :
    Extends s (s.withPackage run name version manager) :=
  { Extends.refl h.ordered with
    grows := { Grows.refl s with packages := Table.view_insert }
    ordered := { h.ordered with packages := h.ordered.packages.insert _ }
    packages := fun r hm => (Table.mem_insert_iff.mp hm).imp_right fun he => by
      rw [he]
      exact hr }

theorem extends_withResultSet (h : s.Scoped) {run : Int} (hr : s.runs.has run = true) :
    Extends s (s.withResultSet run) :=
  { Extends.refl h.ordered with
    grows := { Grows.refl s with resultSets := Table.view_insert }
    ordered := { h.ordered with resultSets := h.ordered.resultSets.insert _ }
    resultSets := fun r hm => (Table.mem_insert_iff.mp hm).imp_right fun he => by
      rw [he]
      exact ⟨hr, by simp, by simp⟩ }

theorem extends_withRange (h : s.Scoped) {run document : Int}
    (hd : s.documentRun? document = some run) (span : Span) {resultSet : Option Int}
    (hk : ∀ k, resultSet = some k → s.resultSetRun? k = some run) :
    Extends s (s.withRange document span resultSet) :=
  { Extends.refl h.ordered with
    grows := { Grows.refl s with ranges := Table.view_insert }
    ordered := { h.ordered with ranges := h.ordered.ranges.insert _ }
    ranges := fun r hm => (Table.mem_insert_iff.mp hm).imp_right fun he => by
      rw [he]
      exact ⟨run, hd, hk⟩ }

theorem extends_withDefinition (h : s.Scoped) {item : Item}
    (hi : s.InRun item.run item.document item.range) : Extends s (s.withDefinition item) :=
  { Extends.refl h.ordered with
    grows := { Grows.refl s with }
    ordered := { h.ordered with definitionItems := h.ordered.definitionItems.insert _ }
    definitionItems := fun r hm => (Table.mem_insert_iff.mp hm).imp_right fun he => by
      rw [he]
      exact ⟨hi.ofRun, hi.ofDocument⟩ }

theorem extends_withReference (h : s.Scoped) {item : Item}
    (hi : s.InRun item.run item.document item.range) (isDefinition : Bool) :
    Extends s (s.withReference item isDefinition) :=
  { Extends.refl h.ordered with
    grows := { Grows.refl s with }
    ordered := { h.ordered with referenceItems := h.ordered.referenceItems.insert _ }
    referenceItems := fun r hm => (Table.mem_insert_iff.mp hm).imp_right fun he => by
      rw [he]
      exact ⟨hi.ofRun, hi.ofDocument⟩ }

theorem extends_modifyResultSet (h : s.Scoped) {id : Int} {a : ResultSet}
    {change : ResultSet → ResultSet} (ha : s.resultSets.get? id = some a)
    (hr : ∀ r, (change r).run = r.run)
    (hh : ∀ k, (change a).hover = some k → s.hoverRun? k = some a.run)
    (hm : ∀ k, (change a).moniker = some k → s.monikerRun? k = some a.run) :
    Extends s { s with resultSets := s.resultSets.modify id change } :=
  { Extends.refl h.ordered with
    grows := { Grows.refl s with resultSets := fun he => (Table.view_modify hr).trans he }
    ordered := { h.ordered with resultSets := h.ordered.resultSets.modify _ _ }
    resultSets := fun r hmem => (h.ordered.resultSets.mem_modify ha hmem).imp_right fun he => by
      rw [he, hr]
      exact ⟨h.resultSets _ (Table.mem_of_get? ha), hh, hm⟩ }

theorem setBucket_other (r : ResultSet) (bucket : Int) (kind : BucketKind) :
    (r.setBucket bucket kind).run = r.run ∧ (r.setBucket bucket kind).hover = r.hover ∧
      (r.setBucket bucket kind).moniker = r.moniker := by
  cases kind <;> exact ⟨rfl, rfl, rfl⟩

theorem extends_settingBucket (h : s.Scoped) {resultSet run : Int}
    (hk : s.resultSetRun? resultSet = some run) (kind : BucketKind) (bucket : Int) :
    Extends s (s.settingBucket resultSet kind bucket) := by
  obtain ⟨a, ha, -⟩ := Table.view_eq_some_iff.mp hk
  have hm := Table.mem_of_get? ha
  have other := setBucket_other a bucket kind
  apply extends_modifyResultSet h ha
  · exact fun r => (setBucket_other r bucket kind).1
  · rw [other.2.1]
    exact h.hoverOf _ hm
  · rw [other.2.2]
    exact h.monikerOf _ hm

theorem extends_settingHover (h : s.Scoped) {resultSet hover run : Int}
    (hk : s.resultSetRun? resultSet = some run) (hh : s.hoverRun? hover = some run) :
    Extends s (s.settingHover resultSet hover) := by
  obtain ⟨a, ha, rfl⟩ := Table.view_eq_some_iff.mp hk
  apply extends_modifyResultSet h ha
  · exact fun _ => rfl
  · exact fun k he => Option.some.inj he ▸ hh
  · exact h.monikerOf _ (Table.mem_of_get? ha)

theorem extends_settingMoniker (h : s.Scoped) {resultSet moniker run : Int}
    (hk : s.resultSetRun? resultSet = some run) (hm : s.monikerRun? moniker = some run) :
    Extends s (s.settingMoniker resultSet moniker) := by
  obtain ⟨a, ha, rfl⟩ := Table.view_eq_some_iff.mp hk
  apply extends_modifyResultSet h ha
  · exact fun _ => rfl
  · exact h.hoverOf _ (Table.mem_of_get? ha)
  · exact fun k he => Option.some.inj he ▸ hm

theorem extends_settingPackage (h : s.Scoped) {moniker package run : Int}
    (hm : s.monikerRun? moniker = some run) (hp : s.packageRun? package = some run) :
    Extends s (s.settingPackage moniker package) := by
  obtain ⟨a, ha, rfl⟩ := Table.view_eq_some_iff.mp hm
  refine
    { Extends.refl h.ordered with
      grows := { Grows.refl s with
        monikers := fun he => (Table.view_modify fun _ => by rfl).trans he }
      ordered := { h.ordered with
        monikers := by
          simp only [settingPackage]
          exact h.ordered.monikers.modify _ _ }
      monikers := fun r hmem => (h.ordered.monikers.mem_modify ha hmem).imp_right fun he => ?_
      monikerLink := fun r hmem => ?_
      links := fun _ => .inl }
  · rw [he]
    exact ⟨h.monikers (moniker, a) (Table.mem_of_get? ha), fun p hk => Option.some.inj hk ▸ hp⟩
  · obtain ⟨b, hb, -⟩ := Table.mem_modify_iff.mp hmem
    exact .inl ⟨b, hb, rfl⟩

theorem extends_settingResultSet (h : s.Scoped) {range document resultSet run : Int}
    (hi : s.InRun run document range) (hk : s.resultSetRun? resultSet = some run) :
    Extends s (s.settingResultSet range resultSet) := by
  obtain ⟨a, ha, hd⟩ := Table.view_eq_some_iff.mp hi.ofDocument
  refine
    { Extends.refl h.ordered with
      grows := { Grows.refl s with
        ranges := fun he => (Table.view_modify fun _ => by rfl).trans he }
      ordered := { h.ordered with
        ranges := by
          simp only [settingResultSet]
          exact h.ordered.ranges.modify _ _ }
      ranges := fun r hmem => (h.ordered.ranges.mem_modify ha hmem).imp_right fun he => ?_ }
  rw [he]
  exact ⟨run, hd ▸ hi.ofRun, fun k hk' => Option.some.inj hk' ▸ hk⟩

theorem has_symbolFor (h : s.Ordered) (scheme identifier : String) (kind : Option String) :
    (s.withSymbol scheme identifier kind).symbols.has (s.symbolFor scheme identifier) = true := by
  unfold withSymbol symbolFor
  cases hn : s.symbolNamed? scheme identifier with
  | none => exact Table.has_iff.mpr ⟨_, h.symbols.get?_insert_next _⟩
  | some p =>
    have hm : (p.1, p.2) ∈ s.symbols.rows := List.mem_of_find?_eq_some hn
    exact Table.has_iff.mpr ⟨p.2, h.symbols.get?_eq_some_iff.mpr hm⟩

theorem has_withSymbol {scheme identifier : String} {kind : Option String} {id : Int}
    (h : s.symbols.has id = true) :
    (s.withSymbol scheme identifier kind).symbols.has id = true := by
  unfold withSymbol
  dsimp only
  split
  next => exact h
  next => exact Table.has_insert h

theorem links_next (h : s.Scoped) :
    (s.links.filter fun l => l.moniker == s.monikers.last + 1) = [] := by
  rw [List.filter_eq_nil_iff]
  intro l hl he
  exact h.ordered.monikers.ne_next (h.links l hl).1 (beq_iff_eq.mp he)

theorem extends_withMoniker (h : s.Scoped) {run : Int} (hr : s.runs.has run = true)
    (scheme identifier : String) (kind : Option String) {package : Option Int}
    (hp : ∀ p, package = some p → s.packageRun? p = some run) :
    Extends s (s.withMoniker run scheme identifier kind package) :=
  { Extends.refl h.ordered with
    grows := { Grows.refl s with
      monikers := Table.view_insert
      symbols := has_withSymbol
      links := List.mem_append_left _ }
    ordered := { h.ordered with
      monikers := h.ordered.monikers.insert _
      symbols := by
        simp only [withMoniker, withSymbol, withLink]
        split
        next => exact h.ordered.symbols.skip
        next => exact h.ordered.symbols.insert _ }
    monikers := fun r hmem => (Table.mem_insert_iff.mp hmem).imp_right fun he => by
      rw [he]
      exact ⟨hr, hp⟩
    monikerLink := fun r hmem => by
      rcases Table.mem_insert_iff.mp hmem with ho | he
      · have hb := h.ordered.monikers.bounded r ho
        have hne : (s.monikers.last + 1 == r.1) = false := by simp; omega
        exact .inl ⟨r.2, ho, by simp [withMoniker, withLink, withSymbol, withMonikerRow, hne]⟩
      · right
        have hn := links_next h
        simp [he, withMoniker, withLink, withSymbol, withMonikerRow, hn]
    links := fun l hl => by
      rcases List.mem_append.mp hl with ho | hn
      · exact .inl ho
      · rw [List.mem_singleton.mp hn]
        exact .inr ⟨Table.has_iff.mpr ⟨_, h.ordered.monikers.get?_insert_next _⟩,
          has_symbolFor h.ordered scheme identifier kind⟩ }

end Store

end SymbolAtlas
