import Mathlib.Logic.Relation
import SymbolAtlas.Proofs.Scope
import SymbolAtlas.Proofs.Stage

/-!
What an ingest can write.  All that it knows about ids is about rows of its own run, so no record
can make it write into another one.
-/

namespace SymbolAtlas

namespace IdMap

variable {α : Type} {m : IdMap α} {P : α → Prop}

theorem forall_insert (h : ∀ {id a}, m.get? id = some a → P a) {j : Int} {value : α}
    (hv : P value) {id : Int} {a : α} (ha : (m.insert j value).get? id = some a) : P a := by
  rw [get?_insert] at ha
  split at ha
  next => exact Option.some.inj ha ▸ hv
  next => exact h ha

theorem forall_erase (h : ∀ {id a}, m.get? id = some a → P a) {j id : Int} {a : α}
    (ha : (m.erase j).get? id = some a) : P a := by
  rw [get?_erase] at ha
  split at ha
  next => simp at ha
  next => exact h ha

end IdMap

namespace Known

variable {k : Known} {run : Int} {s t : Store}

/-- All that is known is about rows of one run. -/
structure NamesRows (k : Known) (run : Int) (s : Store) : Prop where
  documents : ∀ {id row}, k.documents.get? id = some row → s.documentRun? row = some run
  resultSets : ∀ {id row}, k.resultSets.get? id = some row → s.resultSetRun? row = some run
  monikers : ∀ {id row}, k.monikers.get? id = some row → s.monikerRun? row = some run
  hovers : ∀ {id row}, k.hovers.get? id = some row → s.hoverRun? row = some run
  packages : ∀ {id row}, k.packages.get? id = some row → s.packageRun? row = some run
  unclaimed : ∀ {id range}, k.unclaimed.get? id = some range →
    ∀ j, range.resultSet = some j → s.resultSetRun? j = some run
  claimed : ∀ {id range}, k.claimed.get? id = some range →
    s.InRun run range.document range.row ∧
      ∀ j, range.resultSet = some j → s.resultSetRun? j = some run

theorem NamesRows.grow (h : k.NamesRows run s) (g : s.Grows t) : k.NamesRows run t where
  documents hd := g.documents (h.documents hd)
  resultSets hr := g.resultSets (h.resultSets hr)
  monikers hm := g.monikers (h.monikers hm)
  hovers hh := g.hovers (h.hovers hh)
  packages hp := g.packages (h.packages hp)
  unclaimed hu j hj := g.resultSets (h.unclaimed hu j hj)
  claimed hc := ⟨g.inRun (h.claimed hc).1, fun j hj => g.resultSets ((h.claimed hc).2 j hj)⟩

theorem NamesRows.resultSetOf? (h : k.NamesRows run s) {id row : Int}
    (hr : k.resultSetOf? id = some row) : s.resultSetRun? row = some run := by
  unfold Known.resultSetOf? at hr
  split at hr
  next hk => exact h.resultSets (hk.trans hr)
  next =>
    split at hr
    next hc => exact (h.claimed hc).2 row hr
    next =>
      obtain ⟨range, hu, he⟩ := Option.bind_eq_some_iff.mp hr
      exact h.unclaimed hu row he

theorem NamesRows.learnKind (h : k.NamesRows run s) (bucket : Int) (kind : BucketKind) :
    (k.learnKind bucket kind).NamesRows run s := by
  unfold Known.learnKind
  split
  next => exact h
  next => exact { h with }

end Known

namespace Store

/-- All that one record can write for its run.  What it names belongs to the run. -/
inductive Write (run : Int) (s : Store) : Store → Prop where
  | describing (projectRoot lsifVersion : Option String) :
    Write run s (s.describing run projectRoot lsifVersion)
  | document (uri : String) (languageId : Option String) :
    Write run s (s.withDocument run uri languageId)
  | hover (contents : String) : Write run s (s.withHover run contents)
  | package (name : String) (version manager : Option String) :
    Write run s (s.withPackage run name version manager)
  | moniker (scheme identifier : String) (kind : Option String) {package : Option Int} :
    (∀ p, package = some p → s.packageRun? p = some run) →
    Write run s (s.withMoniker run scheme identifier kind package)
  | resultSet : Write run s (s.withResultSet run)
  | range {document : Int} (span : Span) {resultSet : Option Int} :
    s.documentRun? document = some run →
    (∀ k, resultSet = some k → s.resultSetRun? k = some run) →
    Write run s (s.withRange document span resultSet)
  | definition {document range : Int} (bucket : Int) : s.InRun run document range →
    Write run s (s.withDefinition ⟨run, bucket, document, range⟩)
  | reference {document range : Int} (bucket : Int) (isDefinition : Bool) :
    s.InRun run document range →
    Write run s (s.withReference ⟨run, bucket, document, range⟩ isDefinition)
  | settingBucket {resultSet : Int} (kind : BucketKind) (bucket : Int) :
    s.resultSetRun? resultSet = some run → Write run s (s.settingBucket resultSet kind bucket)
  | settingHover {resultSet hover : Int} :
    s.resultSetRun? resultSet = some run → s.hoverRun? hover = some run →
    Write run s (s.settingHover resultSet hover)
  | settingMoniker {resultSet moniker : Int} :
    s.resultSetRun? resultSet = some run → s.monikerRun? moniker = some run →
    Write run s (s.settingMoniker resultSet moniker)
  | settingPackage {moniker package : Int} :
    s.monikerRun? moniker = some run → s.packageRun? package = some run →
    Write run s (s.settingPackage moniker package)
  | settingResultSet {document range resultSet : Int} :
    s.InRun run document range → s.resultSetRun? resultSet = some run →
    Write run s (s.settingResultSet range resultSet)

theorem Write.extends {run : Int} {s t : Store} (w : Write run s t) (h : s.Scoped)
    (hr : s.runs.has run = true) : Extends s t := by
  cases w with
  | describing projectRoot lsifVersion => exact extends_describing h run projectRoot lsifVersion
  | document uri languageId => exact extends_withDocument h hr uri languageId
  | hover contents => exact extends_withHover h hr contents
  | package name version manager => exact extends_withPackage h hr name version manager
  | moniker scheme identifier kind hp => exact extends_withMoniker h hr scheme identifier kind hp
  | resultSet => exact extends_withResultSet h hr
  | range span hd hk => exact extends_withRange h hd span hk
  | definition bucket hi => exact extends_withDefinition h hi
  | reference bucket isDefinition hi => exact extends_withReference h hi isDefinition
  | settingBucket kind bucket hk => exact extends_settingBucket h hk kind bucket
  | settingHover hk hh => exact extends_settingHover h hk hh
  | settingMoniker hk hm => exact extends_settingMoniker h hk hm
  | settingPackage hm hp => exact extends_settingPackage h hm hp
  | settingResultSet hi hk => exact extends_settingResultSet h hi hk

theorem writes_keep {motive : Store → Prop} {run : Int} {s t : Store} (h : s.Scoped)
    (hr : s.runs.has run = true) (start : motive s)
    (step : ∀ {a b : Store}, a.Scoped → Write run a b → motive a → motive b)
    (path : Relation.ReflTransGen (Write run) s t) : motive t := by
  have hend : motive t ∧ t.Scoped ∧ t.runs.has run = true := by
    induction path with
    | refl => exact ⟨start, h, hr⟩
    | tail _ w ih =>
      obtain ⟨hm, hs, hl⟩ := ih
      have e := w.extends hs hl
      exact ⟨step hs w hm, e.scoped hs, e.grows.runs hl⟩
  exact hend.1

end Store

namespace Stage

open Store

/-- The run is there, rows keep to their scopes, what is known is about rows of the run, and the
store comes from another one by writes for the run. -/
structure Grounded (base : Store) (p : Stage) : Prop where
  live : p.store.runs.has p.run = true
  keeps : p.store.Scoped
  names : p.known.NamesRows p.run p.store
  path : Relation.ReflTransGen (Write p.run) base p.store

variable {base : Store} {p : Stage}

theorem Grounded.extend (h : p.Grounded base) {store : Store} (w : Write p.run p.store store)
    {change : Known → Known}
    (hn : p.known.NamesRows p.run store → (change p.known).NamesRows p.run store) :
    (p.learn change store).Grounded base := by
  have e := w.extends h.keeps h.live
  exact ⟨e.grows.runs h.live, e.scoped h.keeps, hn (h.names.grow e.grows), h.path.tail w⟩

theorem Grounded.write (h : p.Grounded base) {store : Store} (w : Write p.run p.store store) :
    (p.writing store).Grounded base := by
  have e := w.extends h.keeps h.live
  exact ⟨e.grows.runs h.live, e.scoped h.keeps, h.names.grow e.grows, h.path.tail w⟩

theorem Grounded.learnOnly (h : p.Grounded base) {change : Known → Known}
    (hn : (change p.known).NamesRows p.run p.store) : (p.learn change p.store).Grounded base :=
  ⟨h.live, h.keeps, hn, h.path⟩

theorem grounded_vertex (v : Vertex) (h : p.Grounded base) : (p.vertex v).Grounded base := by
  have ho := h.keeps.ordered
  cases v with
  | metaData version projectRoot => exact h.write (.describing projectRoot version)
  | document id uri languageId =>
    refine h.extend (.document uri languageId) fun hn => ?_
    exact { hn with
      documents := IdMap.forall_insert hn.documents (ho.documents.view_insert_next _) }
  | range id span =>
    refine h.learnOnly { h.names with unclaimed := IdMap.forall_insert h.names.unclaimed ?_ }
    simp
  | resultSet id =>
    refine h.extend .resultSet fun hn => ?_
    exact { hn with
      resultSets := IdMap.forall_insert hn.resultSets (ho.resultSets.view_insert_next _) }
  | moniker id scheme identifier kind package =>
    refine h.extend (.moniker scheme identifier kind fun row hr => ?_) fun hn => ?_
    · obtain ⟨stream, -, hk⟩ := Option.bind_eq_some_iff.mp hr
      exact h.names.packages hk
    · exact { hn with monikers := IdMap.forall_insert hn.monikers (ho.monikers.view_insert_next _) }
  | hoverResult id result =>
    refine h.extend (.hover result.hoverText) fun hn => ?_
    exact { hn with hovers := IdMap.forall_insert hn.hovers (ho.hovers.view_insert_next _) }
  | packageInformation id name version manager =>
    refine h.extend (.package name version manager) fun hn => ?_
    exact { hn with packages := IdMap.forall_insert hn.packages (ho.packages.view_insert_next _) }
  | bucket kind id => exact h.learnOnly (h.names.learnKind id kind)
  | other => exact ⟨h.live, h.keeps, h.names, h.path⟩

theorem grounded_claim {outV document : Int} (id : Int)
    (hd : p.known.documents.get? outV = some document) (h : p.Grounded base) :
    (p.claim document id).Grounded base := by
  unfold claim
  split
  next => exact ⟨h.live, h.keeps, h.names, h.path⟩
  next range hu =>
    have hk := h.names.unclaimed hu
    refine h.extend (.range range.span (h.names.documents hd) hk) fun hn => ?_
    refine { hn with
      unclaimed := IdMap.forall_erase hn.unclaimed
      claimed := IdMap.forall_insert hn.claimed ⟨⟨hn.documents hd, ?_⟩, hk⟩ }
    exact h.keeps.ordered.ranges.view_insert_next _

theorem grounded_next (outV inV : Int) (h : p.Grounded base) :
    (p.next outV inV).Grounded base := by
  unfold next
  split
  next => exact ⟨h.live, h.keeps, h.names, h.path⟩
  next resultSet hr =>
    have hk := h.names.resultSets hr
    have named : ∀ j, some resultSet = some j → p.store.resultSetRun? j = some p.run :=
      fun j hj => Option.some.inj hj ▸ hk
    split
    next =>
      exact h.learnOnly
        { h.names with unclaimed := IdMap.forall_insert h.names.unclaimed named }
    next range _ hc =>
      refine h.extend (.settingResultSet (h.names.claimed hc).1 hk) fun hn => ?_
      refine { hn with claimed := IdMap.forall_insert hn.claimed ⟨?_, named⟩ }
      exact (hn.claimed hc).1
    next => split <;> exact ⟨h.live, h.keeps, h.names, h.path⟩

theorem grounded_bucket (kind : BucketKind) (outV inV : Int) (h : p.Grounded base) :
    (p.bucket kind outV inV).Grounded base := by
  have hl : (p.learn (fun k => k.learnKind inV kind) p.store).Grounded base :=
    h.learnOnly (h.names.learnKind inV kind)
  unfold bucket
  dsimp only
  split
  next => exact ⟨hl.live, hl.keeps, hl.names, hl.path⟩
  next hr => exact hl.write (.settingBucket kind inV (hl.names.resultSetOf? hr))

theorem grounded_item (bucket : Int) (property : Option String) (id : Int)
    (h : p.Grounded base) : (p.item bucket property id).Grounded base := by
  unfold item
  split
  next => exact ⟨h.live, h.keeps, h.names, h.path⟩
  next range hc =>
    have hi := (h.names.claimed hc).1
    split
    next => exact h.write (.definition bucket hi)
    next => exact h.write (.reference bucket _ hi)

/-- Every record keeps to the run of its ingest. -/
theorem grounded_kept (base : Store) : Kept (Grounded base) where
  counting _ _ h := ⟨h.live, h.keeps, h.names, h.path⟩
  vertex v h := grounded_vertex v h
  claim id hd h := grounded_claim id hd h
  next outV inV h := grounded_next outV inV h
  moniker hr hm h := h.write (.settingMoniker (h.names.resultSetOf? hr) (h.names.monikers hm))
  package hm hk h := h.write (.settingPackage (h.names.monikers hm) (h.names.packages hk))
  bucket kind outV inV h := grounded_bucket kind outV inV h
  hover hr hh h := h.write (.settingHover (h.names.resultSetOf? hr) (h.names.hovers hh))
  item bucket property id h := grounded_item bucket property id h

theorem grounded_start {s : Store} (h : s.Scoped) (about : RunMeta) (createdAt : Int) :
    Grounded (s.withRun about createdAt)
      ⟨.start (s.runs.last + 1), s.withRun about createdAt⟩ where
  live := Table.has_iff.mpr ⟨_, h.ordered.runs.get?_insert_next _⟩
  keeps := (extends_withRun h about createdAt).scoped h
  names := by constructor <;> simp [Stage.known, Ingestion.start, IdMap.get?]
  path := .refl

end Stage

end SymbolAtlas
