import SymbolAtlas.Proofs.Migration
import SymbolAtlas.Proofs.Subjects
import SymbolAtlas.Store.Opening

namespace SymbolAtlas

namespace Upgrade

open Sql

/-- What is there after statements about some subjects: these and what was there before.  The
tables that nobody asks for are left out. -/
structure Grown (c d : Catalog) (subjects : List Subject) : Prop where
  relations : ∀ name, isOwn name = false →
    d.hasRelation name = (c.hasRelation name || subjects.any (·.isRelation name))
  triggers : ∀ name, d.hasTrigger name = (c.hasTrigger name || subjects.any (·.isTrigger name))
  tables : ∀ trigger table, .trigger trigger table ∈ subjects → isOwn table = false →
    d.hasRelation table = true

namespace Grown

variable {c d e : Catalog} {before after : List Subject} {head : Parser.Heading}
  {definition : Definition} {name : String}

theorem refl (c : Catalog) : Grown c c [] :=
  ⟨fun _ _ => by simp, fun _ => by simp, nofun⟩

theorem trans (h : Grown c d before) (g : Grown d e after) : Grown c e (before ++ after) where
  relations name hn := by
    rw [g.relations name hn, h.relations name hn, List.any_append, Bool.or_assoc]
  triggers name := by rw [g.triggers, h.triggers, List.any_append, Bool.or_assoc]
  tables trigger table ht hn := by
    obtain ht | ht := List.mem_append.mp ht
    · rw [g.relations table hn, h.tables trigger table ht hn, Bool.true_or]
    · exact g.tables trigger table ht hn

theorem of_there (h : head.isThere c = true) : Grown c c head.subject?.toList where
  relations name _ := by
    rw [any_toList]
    cases hs : head.subject?.any (·.isRelation name) with
    | false => rw [Bool.or_false]
    | true => rw [Parser.Heading.hasRelation_of_isThere h hs, Bool.true_or]
  triggers name := by
    rw [any_toList]
    cases hs : head.subject?.any (·.isTrigger name) with
    | false => rw [Bool.or_false]
    | true => rw [Parser.Heading.hasTrigger_of_isThere h hs, Bool.true_or]
  tables trigger table hmem _ :=
    Parser.Heading.hasTable_of_start (.inl h) (Option.mem_toList.mp hmem)

theorem of_makes (hm : head.Makes definition) (root : Nat)
    (ht : ∀ trigger table, head.subject? = some (.trigger trigger table) → isOwn table = false →
      c.hasRelation table = true) :
    Grown c (c.add root definition) head.subject?.toList where
  relations name _ := by rw [Catalog.hasRelation_add, hm.isRelation, any_toList]
  triggers name := by rw [Catalog.hasTrigger_add, hm.isTrigger, any_toList]
  tables trigger table hmem hn := by
    have hthere := ht trigger table (Option.mem_toList.mp hmem) hn
    rw [Catalog.hasRelation_add, hthere, Bool.true_or]

/-- A table that nobody asks for. -/
theorem of_own {r : Relation} (hr : isOwn r.name = true) (root : Nat) :
    Grown c (c.add root (.relation r)) [] where
  relations name hn := by
    have hother : sameName r.name name = false := by
      by_contra hsame
      rw [← isOwn_congr (eq_true_of_ne_false hsame), hr] at hn
      cases hn
    simp [Catalog.hasRelation_add, Definition.isRelation, hother]
  triggers name := by simp [Catalog.hasTrigger_add, Definition.isTrigger]
  tables _ _ hmem := nomatch hmem

end Grown

variable {u v : Upgrade} {definition : Definition}

theorem catalog_finish {grows : Bool} (h : u.finish grows = .ok v) : v.catalog = u.catalog := by
  unfold finish at h
  split at h
  next => cases h
  next =>
    cases h
    rfl

theorem catalog_add (length : Nat) :
    (u.add length definition).catalog = u.catalog.add (u.image.pageCount + 1) definition := by
  have hkeys : ∀ (keys : List (KeyDef × String)) (table : String) (u : Upgrade),
      (keys.foldl (fun u key => u.note "index" key.2 table 0 true) u).catalog = u.catalog := by
    intro keys table
    induction keys with
    | nil => exact fun _ => rfl
    | cons key keys ih => exact fun u => ih _
  rcases definition with (_ | _ | _) | _ | _ | _
  · exact hkeys _ _ _
  all_goals rfl

theorem addCounter_grown (h : u.addCounter = .ok v) : Grown u.catalog v.catalog [] := by
  unfold addCounter at h
  split at h
  next => cases h
  next =>
    split at h
    next =>
      cases h
      exact .refl _
    next => cases h
  next =>
    split at h
    next => cases h
    next =>
      cases h
      rw [catalog_add]
      exact .of_own (isOwn_of_mem List.mem_cons_self) _

theorem addCounterFor_grown (h : u.addCounterFor definition = .ok v) :
    Grown u.catalog v.catalog [] := by
  unfold addCounterFor at h
  split at h
  next =>
    split at h
    next => exact addCounter_grown h
    next =>
      cases h
      exact .refl _
  next =>
    cases h
    exact .refl _

theorem addShadow_grown {shadow : String × String} (hs : IsShadow shadow)
    (ho : isOwn shadow.1 = true) (h : u.addShadow shadow = .ok v) :
    Grown u.catalog v.catalog [] := by
  unfold addShadow at h
  dsimp only at h
  split at h
  next => cases h
  next definition hread =>
    split at h
    next => cases h
    next =>
      cases h
      obtain ⟨head, hhead, hleads⟩ := Setting.leads_of_read rfl hread
      dsimp only at hhead hleads
      rw [IsShadow, subject?, hhead] at hs
      rw [catalog_add]
      cases hleads with
      | old => exact .refl _
      | new hm =>
        obtain ⟨r, rfl, hr⟩ := hm.relation hs
        exact .of_own (by rw [hr, ho]) _

theorem addShadows_grown {shadows : List (String × String)}
    (hs : ∀ shadow ∈ shadows, IsShadow shadow ∧ isOwn shadow.1 = true)
    (h : shadows.foldlM addShadow u = .ok v) : Grown u.catalog v.catalog [] := by
  induction shadows generalizing u with
  | nil =>
    cases h
    exact .refl _
  | cons shadow shadows ih =>
    obtain ⟨⟨hshadow, hown⟩, hs⟩ := List.forall_mem_cons.mp hs
    obtain ⟨mid, hmid, h⟩ := bind_eq_ok h
    exact (addShadow_grown hshadow hown hmid).trans (ih hs h)

theorem ok_of_guard {α ε : Type} {p : Prop} [Decidable p] {e : ε} {k : Unit → Except ε α} {a : α}
    (h : (if p then throw e >>= k else k ()) = .ok a) : k () = .ok a := by
  split at h
  next => cases h
  next => exact h

theorem define_grown {length : Nat}
    (hv : ∀ t, definition = .relation (.virtualTable t) → t.name = indexName)
    (h : u.define length definition = .ok v) :
    ∃ root, Grown (u.catalog.add root definition) v.catalog [] := by
  unfold define at h
  have hfinish : ∀ {grows : Bool}, (u.add length definition).finish grows = .ok v →
      Grown (u.catalog.add (u.image.pageCount + 1) definition) v.catalog [] := by
    intro grows h
    rw [catalog_finish h, catalog_add]
    exact .refl _
  rcases definition with (t | t | t) | _ | t | _ <;> dsimp only at h
  case relation.table | relation.view => exact ⟨_, hfinish (ok_of_guard h)⟩
  case relation.virtualTable =>
    obtain ⟨mid, hmid, h⟩ := bind_eq_ok (ok_of_guard h)
    rw [hv t rfl] at hmid
    have hown : ∀ shadow ∈ shadowTables indexName, IsShadow shadow ∧ isOwn shadow.1 = true := by
      intro shadow hs
      have hmem : shadow.1 ∈ ownTables := List.mem_cons_of_mem _ (List.mem_map_of_mem hs)
      exact ⟨isShadow_of_mem shadow hs, isOwn_of_mem hmem⟩
    have hshadows := addShadows_grown hown hmid
    rw [catalog_add, ← catalog_finish h] at hshadows
    exact ⟨_, hshadows⟩
  case index => exact ⟨_, hfinish (ok_of_guard h)⟩
  case trigger => exact ⟨_, hfinish h⟩
  case nothing =>
    cases h
    exact ⟨0, .refl _⟩

/-- A statement that creates something leaves what it is about behind. -/
theorem create_grown {text rest : String}
    (hv : ∀ name, subject? text = some (.relation name true) → name = indexName)
    (h : u.create text rest = .ok v) : Grown u.catalog v.catalog (subject? text).toList := by
  unfold create at h
  split at h
  next => cases h
  next => cases h
  next definition hread =>
    obtain ⟨head, hhead, hleads⟩ := Setting.leads_of_read rfl hread
    dsimp only at hhead hleads
    have hsubject : subject? text = head.subject? := by rw [subject?, hhead]; rfl
    rw [hsubject] at hv ⊢
    obtain ⟨counted, hcounted, h⟩ := bind_eq_ok h
    have hcounter := addCounterFor_grown hcounted
    have h := ok_of_guard h
    cases hleads with
    | old ht =>
      cases h
      exact .of_there ht
    | new hm hf =>
      have hdefine : counted.define (keptLength text) definition = .ok v := by
        cases hm with
        | _ => exact ok_of_guard h
      have hvirtual : ∀ t, definition = .relation (.virtualTable t) → t.name = indexName := by
        rintro t rfl
        exact hv t.name hm.virtualTable_subject
      obtain ⟨root, hrest⟩ := define_grown hvirtual hdefine
      have htables : ∀ trigger table, head.subject? = some (.trigger trigger table) →
          isOwn table = false → counted.catalog.hasRelation table = true := by
        intro trigger table hs hn
        have htable := Parser.Heading.hasTable_of_start (.inr hf) hs
        rw [hcounter.relations table hn, htable, Bool.true_or]
      have hmade := hcounter.trans (.trans (.of_makes hm root htables) hrest)
      rwa [List.nil_append, List.append_nil] at hmade

theorem refill_catalog (h : u.refill = .ok v) : v.catalog = u.catalog := by
  unfold refill at h
  split at h
  next => cases h
  next =>
    cases h
    rfl
  next =>
    split at h
    next => cases h
    next =>
      split at h
      next => cases h
      next => exact catalog_finish h

theorem subject?_of_not_creates {text : String} (h : creates text = false) :
    subject? text = none := by
  unfold subject? heading?
  cases hhead : Parser.heading { tokens := tokens text } with
  | error complaint => rfl
  | ok result =>
    obtain ⟨_, r, hcreate, -⟩ := Parser.bind_ok_iff.mp hhead
    have hstarts := (Parser.expect_ok hcreate).1
    unfold creates at h
    cases hts : tokens text with
    | nil =>
      rw [hts] at hstarts
      cases hstarts
    | cons t ts =>
      rw [hts] at h hstarts
      cases hstarts.symm.trans h

theorem run_grown {texts : List String}
    (hv : ∀ name, .relation name true ∈ texts.filterMap subject? → name = indexName)
    (h : u.run texts = .ok v) : Grown u.catalog v.catalog (texts.filterMap subject?) := by
  induction texts generalizing u with
  | nil =>
    cases h
    exact .refl _
  | cons text texts ih =>
    unfold run at h
    split at h
    next hc =>
      obtain ⟨mid, hmid, h⟩ := bind_eq_ok h
      have hsplit : (text :: texts).filterMap subject? =
          (subject? text).toList ++ texts.filterMap subject? := by
        cases hs : subject? text <;> simp [hs]
      rw [hsplit] at hv ⊢
      have hcreated : Grown u.catalog mid.catalog (subject? text).toList := by
        refine create_grown (fun name hs => hv name ?_) hmid
        exact List.mem_append_left _ (Option.mem_toList.mpr hs)
      exact hcreated.trans (ih (fun name hs => hv name (List.mem_append_right _ hs)) h)
    next hc =>
      obtain ⟨mid, hmid, h⟩ := bind_eq_ok h
      rw [List.filterMap_cons_none (subject?_of_not_creates (eq_false_of_ne_true hc))] at hv ⊢
      rw [← refill_catalog hmid]
      exact ih hv h

theorem apply_grown {m : Migration} (h : u.apply m = .ok v) :
    Grown u.catalog v.catalog m.subjects := by
  obtain ⟨mid, hmid, h⟩ := bind_eq_ok h
  rw [catalog_finish (ok_of_guard h)]
  refine run_grown (fun name hs => ?_) hmid
  change _ ∈ m.subjects at hs
  cases m with
  | graph => simp [Migration.subjects_graph] at hs
  | symbolSearch => simpa [Migration.subjects_symbolSearch, indexName] using hs
  | occurrences => simp [Migration.subjects_occurrences] at hs

/-- A migration that is carried out statement by statement does what it does as a whole. -/
theorem apply_ofCatalog {m : Migration} (h : u.apply m = .ok v) (version : Int) :
    (Database.ofCatalog version u.catalog).apply m =
      (none, Database.ofCatalog version v.catalog) := by
  have hg := apply_grown h
  obtain ⟨hsymbols, hindex, hoccurrences⟩ := not_isOwn
  obtain ⟨ssymbols, sindex, soccurrences⟩ := m.subjects_isRelation
  have rsymbols := hg.relations "symbols" hsymbols
  have rindex := hg.relations indexName hindex
  have roccurrences := hg.relations "occurrences" hoccurrences
  have rfollows := hg.triggers "symbol_fts_insert"
  rw [ssymbols] at rsymbols
  rw [sindex] at rindex
  rw [soccurrences] at roccurrences
  rw [m.subjects_isTrigger] at rfollows
  unfold Database.ofCatalog
  cases m with
  | graph | occurrences => simp [Database.apply, rsymbols, rindex, roccurrences, rfollows]
  | symbolSearch =>
    -- The triggers can only be created because there are symbols.
    have htable : v.catalog.hasRelation "symbols" = true := by
      refine hg.tables "symbol_fts_insert" "symbols" ?_ hsymbols
      simp [Migration.subjects_symbolSearch]
    have hgraph : u.catalog.hasRelation "symbols" = true := by simpa [htable] using rsymbols
    simp [Database.apply, Store.reindexed, htable, hgraph, rindex, roccurrences, rfollows]

variable {ms : List Migration}

/-- The version after some migrations, where it was another one before. -/
def versionAfter (version : Int) (ms : List Migration) : Int :=
  ms.getLast?.elim version fun m => m.number

theorem passes_of_applyAll (h : u.applyAll ms = .ok v) (version : Int) :
    Database.Passes Database.apply (Database.ofCatalog version u.catalog) ms
      (Database.ofCatalog (versionAfter version ms) v.catalog) := by
  have hpasses : ∃ last, Database.Passes Database.apply (Database.ofCatalog version u.catalog) ms
      (Database.ofCatalog last v.catalog) := by
    induction ms generalizing u version with
    | nil =>
      cases h
      exact ⟨version, .nil _⟩
    | cons m ms ih =>
      unfold applyAll at h
      split at h
      next => cases h
      next mid hmid =>
        obtain ⟨last, hrest⟩ := ih h m.number
        exact ⟨last, .cons (apply_ofCatalog hmid version) hrest⟩
  obtain ⟨last, hpasses⟩ := hpasses
  have hlast : last = versionAfter version ms := hpasses.version
  rwa [hlast] at hpasses

/-- The first migration that cannot be carried out is told, with the reason. -/
theorem applyAll_error {e : StoreError} (h : u.applyAll ms = .error e) :
    ∃ before step rest mid cause, ms = before ++ step :: rest ∧ u.applyAll before = .ok mid ∧
      mid.apply step = .error cause ∧ e = .migrationFailed step.number cause.message := by
  induction ms generalizing u with
  | nil => cases h
  | cons m ms ih =>
    unfold applyAll at h
    split at h
    next cause hcause =>
      cases h
      exact ⟨[], m, ms, u, cause, rfl, rfl, hcause, rfl⟩
    next next hnext =>
      obtain ⟨before, step, rest, mid, cause, rfl, hbefore, hcause, rfl⟩ := ih h
      refine ⟨m :: before, step, rest, mid, cause, rfl, ?_, hcause, rfl⟩
      unfold applyAll
      rw [hnext]
      exact hbefore

/-- Where an upgrade fails, the migrations before were carried out and noted, and none after. -/
theorem passes_of_applyAll_error {e : StoreError} (h : u.applyAll ms = .error e) (version : Int) :
    ∃ (before : List Migration) (step : Migration) (rest : List Migration) (mid : Upgrade)
      (cause : EngineFailure), ms = before ++ step :: rest ∧
      Database.Passes Database.apply (Database.ofCatalog version u.catalog) before
        (Database.ofCatalog (versionAfter version before) mid.catalog) ∧
      mid.apply step = .error cause ∧ e = .migrationFailed step.number cause.message := by
  obtain ⟨before, step, rest, mid, cause, hms, hbefore, hcause, he⟩ := applyAll_error h
  exact ⟨before, step, rest, mid, cause, hms, passes_of_applyAll hbefore version, hcause, he⟩

end Upgrade

namespace Database

open Upgrade

theorem Passes.applyAll {carryOut : Database → Migration → Option EngineFailure × Database}
    {db last : Database} {ms : List Migration} (h : Passes carryOut db ms last) :
    db.applyAll carryOut ms = (.ok (), last) := by
  induction h with
  | nil db => rfl
  | cons hs _ ih =>
    unfold Database.applyAll
    rw [hs]
    exact ih

theorem versionAfter_due (v : Nat) :
    versionAfter v (due v) = (max v Migration.latest : Nat) := by
  by_cases h : Migration.latest ≤ v
  · rw [due_of_latest_le h, Nat.max_eq_left h]
    rfl
  · match v with
    | 0 | 1 | 2 => rfl
    | v + 3 => exact absurd (Nat.le_add_left 3 v) h

variable {image : Image} {db : Database} {catalog : Sql.Catalog}

theorem catalog_of_prepare (h : prepare image = .ok catalog) : image.catalog = .ok catalog := by
  unfold prepare at h
  split at h
  next => cases h
  next hcatalog =>
    split at h
    next => cases h
    next =>
      cases h
      exact hcatalog

theorem version_of_versionNumber {n : Nat} (h : db.versionNumber = .ok n) : db.version = n := by
  unfold versionNumber at h
  split at h
  next hn =>
    cases h
    exact hn
  next => cases h

/-- Opening the database in an image carries out what is due there, and leaves nothing to do. -/
theorem migrate_ofImage (h : ofImage image = .ok db) :
    ∃ catalog, image.catalog = .ok catalog ∧
      (ofCatalog image.version catalog).migrate = (.ok (), db) ∧ db.migrate = (.ok (), db) := by
  unfold ofImage at h
  split at h
  next => cases h
  next catalog hprepare =>
    dsimp only at h
    split at h
    next => cases h
    next version hversion =>
      have hnumber : image.version = version := version_of_versionNumber hversion
      split at h
      next => cases h
      next u hall =>
        split at h
        next => cases h
        next =>
          cases h
          have hpasses := passes_of_applyAll hall image.version
          have hlast : versionAfter image.version (due version) =
              (max version Migration.latest : Nat) := by
            rw [hnumber, versionAfter_due]
          refine ⟨catalog, catalog_of_prepare hprepare, ?_, ?_⟩
          · unfold migrate migrateBy
            rw [hversion, ← hlast]
            exact hpasses.applyAll
          · refine migrateBy_of_latest_le apply ?_
            exact Int.ofNat_le.mpr (Nat.le_max_right version Migration.latest)

/-- However far an upgrade came, opening what it left ends with everything there. -/
theorem inStep_ofImage {m : Nat} (h : ofImage image = .ok db)
    (hs : ∀ catalog, image.catalog = .ok catalog → InStep m (ofCatalog image.version catalog)) :
    InStep Migration.latest db := by
  obtain ⟨catalog, hcatalog, hmigrate, -⟩ := migrate_ofImage h
  have hstep := hs catalog hcatalog
  obtain ⟨v, hv, hversion⟩ := hstep.version
  obtain ⟨after, hall, hlast, -⟩ := hstep.applyAll_due hv hversion
  have hafter : (ofCatalog image.version catalog).migrate = (.ok (), after) := by
    unfold migrate
    rw [migrateBy_of_nonneg apply (by omega), hversion]
    exact hall
  rw [hafter] at hmigrate
  cases hmigrate
  exact hlast

/-- What is opened, in an image or new, has nothing left to do. -/
theorem migrate_openAt {path : String} {hasDirectory : Bool} {state : FileState}
    (h : openAt path hasDirectory state = .ok db) : db.migrate = (.ok (), db) := by
  have hfresh : fresh.migrate = (.ok (), fresh) := migrateBy_of_latest_le apply (by decide)
  unfold openAt at h
  split at h
  next => cases h
  next =>
    split at h
    next =>
      cases h
      exact hfresh
    next => cases h
    next =>
      split at h
      next =>
        cases h
        exact hfresh
      next =>
        obtain ⟨-, -, -, hidle⟩ := migrate_ofImage h
        exact hidle

end Database

end SymbolAtlas
