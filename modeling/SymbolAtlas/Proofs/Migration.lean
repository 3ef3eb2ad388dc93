import SymbolAtlas.Proofs.Catalog
import SymbolAtlas.Store.Schema

namespace SymbolAtlas

namespace Store

/-- A statement that changes rows, with what the search index hears of it. -/
inductive Edit (s : Store) : Store → Prop where
  | addSymbol (x : Symbol) : Edit s { s with
      symbols := s.symbols.insert x
      searchIndex := s.searchIndex ++ [x.entry (s.symbols.last + 1)] }
  | skipSymbol : Edit s { s with symbols := s.symbols.skip }
  | changeSymbol (id : Int) (x : Symbol) : Edit s { s with
      symbols := s.symbols.modify id fun _ => x
      searchIndex := s.searchIndex.map fun e => if e.symbol = id then x.entry id else e }
  | dropSymbols (stays : Int → Bool) : Edit s { s with
      symbols := s.symbols.keep fun id _ => stays id
      searchIndex := s.searchIndex.filter fun e => stays e.symbol }
  | others {t : Store} (hs : t.symbols = s.symbols) (hi : t.searchIndex = s.searchIndex) : Edit s t

variable {s t : Store}

theorem Edit.ordered (e : s.Edit t) (h : s.symbols.Ordered) : t.symbols.Ordered := by
  cases e with
  | addSymbol x => exact h.insert x
  | skipSymbol => exact h.skip
  | changeSymbol id x => exact h.modify id fun _ => x
  | dropSymbols stays => exact h.keep fun id _ => stays id
  | others hs hi => exact hs ▸ h

theorem Edit.indexed (e : s.Edit t) (h : s.Indexed) : t.Indexed := by
  unfold Indexed at h ⊢
  cases e with
  | addSymbol x => simp [h]
  | skipSymbol => exact h
  | changeSymbol id x =>
    simp only [h, Table.modify, List.map_map]
    refine List.map_congr_left fun r _ => ?_
    by_cases hr : r.1 = id <;> simp [Symbol.entry, hr]
  | dropSymbols stays =>
    simp only [h, Table.keep, List.filter_map]
    rfl
  | others hs hi => rw [hs, hi, h]

theorem edit_withSymbol (scheme identifier : String) (kind : Option String) :
    s.Edit (s.withSymbol scheme identifier kind) := by
  unfold withSymbol
  cases s.symbolNamed? scheme identifier with
  | some r => exact .skipSymbol
  | none => exact .addSymbol _

end Store

theorem Migration.number_inj {a b : Migration} : a.number = b.number ↔ a = b := by
  cases a <;> cases b <;> decide

namespace Database

variable {m v : Nat} {db : Database}

/-- The database with other rows; the search index hears of the symbols only if it follows
them. -/
def withRows (db : Database) (store : Store) : Database :=
  { db with store :=
      if db.followsSymbols then store else { store with searchIndex := db.store.searchIndex } }

theorem internSymbol_eq (scheme identifier : String) (kind : Option String) :
    (db.internSymbol scheme identifier kind).2 =
      if db.hasGraph then db.withRows (db.store.withSymbol scheme identifier kind) else db := by
  have hok : SymbolAtlas.internSymbol scheme identifier kind {} db.store =
      (.ok (db.store.symbolFor scheme identifier), db.store.withSymbol scheme identifier kind) :=
    internSymbol_ok_iff.mpr ⟨⟨rfl, rfl⟩, rfl, rfl⟩
  unfold internSymbol
  split
  next => rw [hok]; rfl
  next => rfl

/-- A database on which the first migrations were applied, each after those before it and then
perhaps again, while the version fell behind and rows were written. -/
inductive Upgraded : Nat → Database → Prop where
  | new : Upgraded 0 {}
  | applied {m : Nat} {db : Database} (h : Upgraded m db) (step : Migration)
      (hn : step.number ≤ m + 1) : Upgraded (max m step.number) (db.apply step).2
  | versioned {m v : Nat} {db : Database} (h : Upgraded m db) (hv : v ≤ m) :
      Upgraded m (db.setVersion v)
  | interned {m : Nat} {db : Database} (h : Upgraded m db) (scheme identifier : String)
      (kind : Option String) : Upgraded m (db.internSymbol scheme identifier kind).2
  | edited {m : Nat} {db : Database} {store : Store} (h : Upgraded m db)
      (he : db.store.Edit store) : Upgraded m (db.withRows store)

/-- Whether a migration has left its mark. -/
def has (db : Database) : Migration → Bool
  | .graph => db.hasGraph
  | .symbolSearch => db.hasSearchIndex
  | .occurrences => db.hasOccurrences

/-- What there is after so many migrations.  The search index holds all symbols if it follows
them. -/
structure InStep (m : Nat) (db : Database) : Prop where
  has : ∀ step, db.has step = decide (step.number ≤ m)
  follows : db.followsSymbols = db.hasSearchIndex
  latest : m ≤ Migration.latest
  version : ∃ v ≤ m, db.version = (v : Nat)
  ordered : db.store.symbols.Ordered
  indexed : db.followsSymbols = true → db.store.Indexed

theorem Edit.inStep {store : Store} (he : db.store.Edit store) (h : InStep m db) :
    InStep m (db.withRows store) :=
  { h with
    ordered := by
      unfold withRows
      dsimp only
      split
      next => exact he.ordered h.ordered
      next => exact he.ordered h.ordered
    indexed := fun hf => by
      have hf : db.followsSymbols = true := hf
      unfold withRows
      dsimp only
      rw [if_pos hf]
      exact he.indexed (h.indexed hf) }

theorem setVersion_eq (h : v ≤ Migration.latest) : db.setVersion v = { db with version := v } := by
  have hb : Migration.latest < int32Bound := by decide
  unfold setVersion
  rw [if_pos (by omega)]

/-- No row is changed. -/
def SameRows (db after : Database) : Prop :=
  { after.store with searchIndex := db.store.searchIndex } = db.store

theorem SameRows.symbols {db after : Database} (h : db.SameRows after) :
    after.store.symbols = db.store.symbols := by
  unfold SameRows at h
  rw [← h]

theorem SameRows.trans {db mid after : Database} (h : db.SameRows mid) (g : mid.SameRows after) :
    db.SameRows after := by
  unfold SameRows at h g ⊢
  rw [← h, ← g]

theorem marked_max {step : Migration} (hn : step.number ≤ m + 1) (k : Migration) :
    decide (k.number ≤ max m step.number) = (decide (k.number ≤ m) || decide (k = step)) := by
  rw [← Bool.decide_or, decide_eq_decide, ← Migration.number_inj]
  omega

/-- A migration succeeds after those before it.  Applied again, it only fills the search index
anew. -/
theorem InStep.applied (h : InStep m db) {step : Migration} (hn : step.number ≤ m + 1) :
    ∃ after, db.apply step = (none, after) ∧ InStep (max m step.number) after ∧
      after.version = db.version ∧ db.SameRows after := by
  have hlatest : max m step.number ≤ Migration.latest :=
    Nat.max_le.mpr ⟨h.latest, by cases step <;> decide⟩
  have hversion : ∃ v ≤ max m step.number, db.version = (v : Nat) := by
    obtain ⟨v, hv, he⟩ := h.version
    exact ⟨v, by omega, he⟩
  have hhas : ∀ k, decide (k.number ≤ max m step.number) = (db.has k || decide (k = step)) := by
    intro k
    rw [marked_max hn, h.has]
  cases step with
  | graph =>
    refine ⟨_, rfl, { h with has := fun k => ?_, latest := hlatest, version := hversion }, rfl, rfl⟩
    rw [hhas]
    cases k <;> simp [Database.has]
  | occurrences =>
    refine ⟨_, rfl, { h with has := fun k => ?_, latest := hlatest, version := hversion }, rfl, rfl⟩
    rw [hhas]
    cases k <;> simp [Database.has]
  | symbolSearch =>
    have hg : db.hasGraph = true := by
      have hone : 1 ≤ m := by
        simp only [Migration.number] at hn
        omega
      exact (h.has .graph).trans (decide_eq_true hone)
    refine ⟨_, if_pos hg, ⟨fun k => ?_, rfl, hlatest, hversion, h.ordered, fun _ => rfl⟩, rfl, rfl⟩
    rw [hhas]
    cases k <;> simp [Database.has]

theorem Upgraded.inStep (h : Upgraded m db) : InStep m db := by
  induction h with
  | new =>
    exact ⟨fun step => by cases step <;> rfl, rfl, Nat.zero_le _, ⟨0, Nat.le_refl 0, rfl⟩, .empty,
      fun _ => rfl⟩
  | applied _ step hn ih =>
    obtain ⟨after, he, hs, -⟩ := ih.applied hn
    rw [he]
    exact hs
  | versioned _ hv ih =>
    rw [setVersion_eq (Nat.le_trans hv ih.latest)]
    exact { ih with version := ⟨_, hv, rfl⟩ }
  | interned _ scheme identifier kind ih =>
    rw [internSymbol_eq]
    split
    next => exact Edit.inStep (Store.edit_withSymbol scheme identifier kind) ih
    next => exact ih
  | edited _ he ih => exact Edit.inStep he ih

theorem due_of_latest_le (h : Migration.latest ≤ v) : due v = [] := by
  unfold Migration.latest at h
  rw [due, List.filter_eq_nil_iff]
  intro step _
  rw [decide_eq_true_iff]
  cases step <;> simp only [Migration.number] <;> omega

theorem due_of_lt_latest (h : v < Migration.latest) :
    ∃ step : Migration, step.number = v + 1 ∧ due v = step :: due (v + 1) := by
  unfold Migration.latest at h
  match v with
  | 0 => exact ⟨.graph, rfl, by decide⟩
  | 1 => exact ⟨.symbolSearch, rfl, by decide⟩
  | 2 => exact ⟨.occurrences, rfl, by decide⟩

/-- Applying what is due leads to the last version, whatever was applied before. -/
theorem InStep.applyAll_due (h : InStep m db) (hv : v ≤ m) (he : db.version = (v : Nat)) :
    ∃ after, db.applyAll apply (due v) = (.ok (), after) ∧ InStep Migration.latest after ∧
      after.version = Migration.latest ∧ db.SameRows after := by
  -- Each step brings the version nearer to the last one.
  induction hd : Migration.latest - v generalizing db m v with
  | zero =>
    have hl := h.latest
    have hm : m = Migration.latest := by omega
    refine ⟨db, ?_, hm ▸ h, ?_, rfl⟩
    · rw [due_of_latest_le (by omega)]
      rfl
    · rw [he]
      exact congrArg Nat.cast (by omega)
  | succ d ih =>
    obtain ⟨step, hn, hdue⟩ := due_of_lt_latest (v := v) (by omega)
    have hle : step.number ≤ m + 1 := by omega
    obtain ⟨mid, hmid, hs, -, hrows⟩ := h.applied hle
    have hnext : InStep (max m step.number) { mid with version := step.number } :=
      { hs with version := ⟨step.number, Nat.le_max_right _ _, rfl⟩ }
    obtain ⟨after, hall, hlast, hver, hrest⟩ :=
      ih hnext (v := v + 1) (by omega) (by rw [hn]) (by omega)
    refine ⟨after, ?_, hlast, hver, hrows.trans hrest⟩
    rw [hdue, applyAll, hmid]
    exact hall

theorem versionNumber_of_nonneg (h : 0 ≤ db.version) :
    db.versionNumber = .ok db.version.toNat := by
  obtain ⟨n, hn⟩ := Int.eq_ofNat_of_zero_le h
  unfold versionNumber
  rw [hn]
  rfl

theorem migrateBy_of_nonneg (carryOut : Database → Migration → Option EngineFailure × Database)
    (h : 0 ≤ db.version) : db.migrateBy carryOut = db.applyAll carryOut (due db.version.toNat) := by
  unfold migrateBy
  rw [versionNumber_of_nonneg h]

theorem migrateBy_of_latest_le
    (carryOut : Database → Migration → Option EngineFailure × Database)
    (h : Migration.latest ≤ db.version) : db.migrateBy carryOut = (.ok (), db) := by
  rw [migrateBy_of_nonneg carryOut (by omega), due_of_latest_le (by omega)]
  rfl

/-- Every migration of a list succeeds and is noted in the version. -/
inductive Passes (carryOut : Database → Migration → Option EngineFailure × Database) :
    Database → List Migration → Database → Prop where
  | nil (db : Database) : Passes carryOut db [] db
  | cons {db mid last : Database} {step : Migration} {rest : List Migration}
      (hs : carryOut db step = (none, mid))
      (hr : Passes carryOut { mid with version := step.number } rest last) :
      Passes carryOut db (step :: rest) last

variable {carryOut : Database → Migration → Option EngineFailure × Database} {last : Database}
  {before : List Migration}

/-- The migrations after one that fails are not looked at. -/
theorem Passes.applyAll_failed {after : Database} {cause : EngineFailure} {step : Migration}
    (h : Passes carryOut db before last) (hf : carryOut last step = (some cause, after))
    (rest : List Migration) :
    db.applyAll carryOut (before ++ step :: rest) =
      (.error (.migrationFailed step.number cause.message), after) := by
  induction h with
  | nil db => rw [List.nil_append, applyAll, hf]
  | cons hs _ ih =>
    rw [List.cons_append, applyAll, hs]
    exact ih hf

theorem Passes.version (h : Passes carryOut db before last) :
    last.version = before.getLast?.elim db.version fun step => step.number := by
  induction h with
  | nil db => rfl
  | @cons db mid last step rest hs hr ih =>
    rw [ih]
    cases rest with
    | nil => rfl
    | cons next rest => rw [List.getLast?_cons_cons, List.getLast?_cons]; rfl

theorem InStep.search (h : InStep Migration.latest db) (run : Int) (terms : List String) :
    ∃ found : List SymbolMatch,
      (∀ limit, db.search run terms limit = .ok (takeLimit limit found)) ∧
      found.Pairwise (fun a b => a.id ≠ b.id) ∧
      ∀ id x, (∃ m ∈ found, m.id = id ∧ m.symbol = x) ↔ (id, x) ∈ db.store.symbols.rows ∧
        matchesAny (phrases terms) [x.qualifiedName, x.identifier] = true := by
  have hg : db.hasGraph = true := h.has .graph
  have hs : db.hasSearchIndex = true := h.has .symbolSearch
  have ho : db.hasOccurrences = true := h.has .occurrences
  have hi := h.indexed (h.follows.trans hs)
  refine ⟨db.store.matching run terms, fun limit => ?_,
    Store.matching_indexed_once h.ordered hi run terms, fun id x => ⟨?_, ?_⟩⟩
  · simp [Database.search, Store.search, hg, hs, ho]
  · rintro ⟨m, hm, rfl, rfl⟩
    obtain ⟨hget, hmatch, -⟩ := (Store.mem_matching_indexed h.ordered hi).mp hm
    exact ⟨Table.mem_of_get? hget, hmatch⟩
  · rintro ⟨hx, hmatch⟩
    let m : SymbolMatch :=
      ⟨id, x, db.store.occurrences.countP fun o => o.run == run && o.symbol == id⟩
    have hget : db.store.symbols.get? m.id = some m.symbol := h.ordered.get?_eq_some_iff.mpr hx
    exact ⟨m, (Store.mem_matching_indexed h.ordered hi).mpr ⟨hget, hmatch, rfl⟩, rfl, rfl⟩

/-- Wherever an upgrade was interrupted and whatever was written around that, migrating succeeds:
it changes no row, puts every symbol into the search index once, and has nothing left to do a
second time.  A later version is left alone.  Where a migration fails, the version stays at the
last one that did not, and nothing comes after. -/
theorem interrupted_upgrade_recovers (db : Database) :
    (∀ m, db.Upgraded m → ∃ after, db.migrate = (.ok (), after) ∧ after.version = 3 ∧
      { after.store with searchIndex := db.store.searchIndex } = db.store ∧
      after.store.searchIndex =
        db.store.symbols.rows.map (fun r => ⟨r.1, r.2.qualifiedName, r.2.identifier⟩) ∧
      (∀ run terms, ∃ found : List SymbolMatch,
        (∀ limit, after.search run terms limit = .ok (takeLimit limit found)) ∧
        found.Pairwise (fun a b => a.id ≠ b.id) ∧
        ∀ id x, (∃ m ∈ found, m.id = id ∧ m.symbol = x) ↔ (id, x) ∈ db.store.symbols.rows ∧
          matchesAny (phrases terms) [x.qualifiedName, x.identifier] = true) ∧
      after.migrate = (.ok (), after)) ∧
    (3 < db.version → ∀ carryOut, db.migrateBy carryOut = (.ok (), db)) ∧
    ∀ carryOut, (∀ db step, (carryOut db step).2.version = db.version) → 0 ≤ db.version →
      ∀ before step rest last cause after, due db.version.toNat = before ++ step :: rest →
        Passes carryOut db before last → carryOut last step = (some cause, after) →
        db.migrateBy carryOut = (.error (.migrationFailed step.number cause.message), after) ∧
          after.version = before.getLast?.elim db.version fun done => done.number := by
  refine ⟨fun m h => ?_, fun hv carryOut => ?_, ?_⟩
  · have hs := h.inStep
    obtain ⟨v, hv, he⟩ := hs.version
    obtain ⟨after, hall, hlast, hver, hrows⟩ := hs.applyAll_due hv he
    have hmigrate : db.migrate = (.ok (), after) := by
      rw [migrate, migrateBy_of_nonneg apply (by omega), he]
      exact hall
    refine ⟨after, hmigrate, hver, hrows, ?_, fun run terms => ?_,
      migrateBy_of_latest_le apply (Int.le_of_eq hver.symm)⟩
    · rw [← hrows.symbols]
      exact hlast.indexed (hlast.follows.trans (hlast.has .symbolSearch))
    · rw [← hrows.symbols]
      exact hlast.search run terms
  · exact migrateBy_of_latest_le carryOut (Int.le_of_lt hv)
  · intro carryOut hk hv before step rest last cause after hdue hpass hfail
    refine ⟨?_, ?_⟩
    · rw [migrateBy_of_nonneg carryOut hv, hdue]
      exact hpass.applyAll_failed hfail rest
    · rw [← hpass.version, ← hk last step, hfail]

/-- Symbols from before and after the search index came are found once each, although its
migration is applied again; version 7 is left alone; and a database that does not take the last
migration stays at the one before it. -/
theorem half_upgraded_recovers :
    let early := ((({} : Database).apply .graph).2.internSymbol "npm" "a:f" none).2
    let late := ((early.apply .symbolSearch).2.internSymbol "npm" "b:f" none).2
    let broken : Database → Migration → Option EngineFailure × Database :=
      fun db step => if step = .occurrences then (some .readOnly, db) else db.apply step
    (late.Upgraded 2 ∧ late.version = 0 ∧ ∃ after, late.migrate = (.ok (), after) ∧
      after.version = 3 ∧ after.store.searchIndex = [⟨1, "f", "a:f"⟩, ⟨2, "f", "b:f"⟩] ∧
      after.migrate = (.ok (), after)) ∧
    (late.setVersion 7).migrate = (.ok (), late.setVersion 7) ∧
    ∃ after, late.migrateBy broken =
        (.error (.migrationFailed 3 EngineFailure.readOnly.message), after) ∧
      after.version = 2 := by
  intro early late broken
  have hu : late.Upgraded 2 :=
    .interned (.applied (.interned (.applied .new .graph (by decide)) _ _ _) .symbolSearch
      (by decide)) _ _ _
  have hversion : late.version = 0 := by decide +kernel
  have hbroken : ∀ db step, (broken db step).2.version = db.version := by
    intro db step
    cases step with
    | graph => rfl
    | symbolSearch => by_cases hg : db.hasGraph <;> simp [broken, apply, hg]
    | occurrences => rfl
  refine ⟨⟨hu, hversion, ?_⟩, ?_, ?_⟩
  · obtain ⟨after, hm, hv, -, hi, -, ha⟩ := (interrupted_upgrade_recovers late).1 2 hu
    exact ⟨after, hm, hv, hi.trans (by decide +kernel), ha⟩
  · exact (interrupted_upgrade_recovers (late.setVersion 7)).2.1 (by decide +kernel) apply
  · refine ⟨_, (interrupted_upgrade_recovers late).2.2 broken hbroken (by omega)
      [.graph, .symbolSearch] .occurrences [] _ .readOnly _ (by decide +kernel)
      (.cons rfl (.cons rfl (.nil _))) rfl⟩

end Database

end SymbolAtlas
