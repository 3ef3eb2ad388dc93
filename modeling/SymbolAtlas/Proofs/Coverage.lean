import SymbolAtlas.Proofs.Roles
import SymbolAtlas.Proofs.Skipped

namespace SymbolAtlas

namespace Store

variable {s : Store} {run bucket symbol : Int} {place : Place} {l : Location}

theorem mem_definitionsIn_iff :
    l ∈ s.definitionsIn run bucket ↔ ∃ r ∈ s.definitionItems.rows,
      r.2.run = run ∧ r.2.bucket = bucket ∧ s.location? r.2.document r.2.range = some l := by
  unfold definitionsIn
  rw [List.mem_filterMap]
  refine exists_congr fun r => and_congr_right fun _ => ?_
  split
  next hb => simp [hb]
  next hb =>
    simp only [reduceCtorEq, false_iff]
    exact fun h => hb ⟨h.1, h.2.1⟩

theorem mem_referencesIn_iff :
    l ∈ s.referencesIn run bucket true ↔ ∃ r ∈ s.referenceItems.rows,
      r.2.run = run ∧ r.2.bucket = bucket ∧ s.location? r.2.document r.2.range = some l := by
  unfold referencesIn
  rw [List.mem_filterMap]
  refine exists_congr fun r => and_congr_right fun _ => ?_
  split
  next hb => simp [hb]
  next hb =>
    simp only [reduceCtorEq, false_iff]
    exact fun h => hb ⟨h.1, h.2.1, .inl rfl⟩

/-- The result set at a place, whose moniker is linked to the symbol. -/
structure Named (s : Store) (place : Place) (symbol : Int) (a : ResultSet) : Prop where
  found : s.resultSetAt? place = some a
  row : ∃ k, (k, a) ∈ s.resultSets.rows
  run : a.run = place.run
  symbol : ∃ m, a.moniker = some m ∧ s.symbolOf? m = some symbol

theorem named_of_monikerAt? (h : s.Scoped) {details : MonikerDetails}
    (hm : s.monikerAt? place = some details) (hs : details.symbol = some symbol) :
    ∃ a, s.Named place symbol a := by
  obtain ⟨a, ha, hb⟩ := Option.bind_eq_some_iff.mp hm
  obtain ⟨m, hmoniker, hd⟩ := Option.bind_eq_some_iff.mp hb
  obtain ⟨row, -, rfl⟩ := Option.map_eq_some_iff.mp hd
  obtain ⟨k, hk, hrun⟩ := resultSetAt?_mem h ha
  exact ⟨a, ha, ⟨k, hk⟩, hrun, m, hmoniker, hs⟩

theorem Named.live {a : ResultSet} (n : s.Named place symbol a) (h : s.Scoped) :
    s.runs.has place.run = true := by
  obtain ⟨k, hk⟩ := n.row
  have hr := h.resultSets (k, a) hk
  rwa [n.run] at hr

/-- What lies in the bucket at a place is found as an occurrence of the symbol there. -/
theorem Named.mem_found {a : ResultSet} (n : s.Named place symbol a) (pass : Pass)
    (hb : s.bucketAt? place pass.bucketKind = some bucket) {p : Item × Role}
    (hp : p ∈ s.passItems pass) (hrun : p.1.run = place.run) (hbucket : p.1.bucket = bucket) :
    ⟨place.run, symbol, p.1.document, p.1.range, p.2⟩ ∈ s.found place.run pass := by
  obtain ⟨k, hk⟩ := n.row
  have hbucket : a.bucket? pass.bucketKind = some p.1.bucket := by
    unfold bucketAt? at hb
    rw [n.found] at hb
    rwa [hbucket]
  have hsymbol : symbol ∈ s.symbolsOfItem pass.bucketKind p.1 :=
    mem_symbolsOfItem_iff.mpr ⟨(k, a), hk, n.run.trans hrun.symm, hbucket, n.symbol⟩
  exact mem_found_iff.mpr ⟨p, hp, hrun, symbol, hsymbol, by rw [hrun]⟩

theorem mem_occurrencesOf {o : Occurrence} {role : Option Role} (ho : o ∈ s.occurrences)
    (hl : s.location? o.document o.range = some l) (hr : ∀ r, role = some r → r = o.role) :
    ⟨o.symbol, o.role, l⟩ ∈ s.occurrencesOf o.run o.symbol role := by
  have hall : role.all (· == o.role) = true := by
    cases role with
    | none => rfl
    | some r => simp [hr r rfl]
  unfold occurrencesOf
  rw [List.mem_mergeSort, List.mem_filterMap]
  refine ⟨o, ho, ?_⟩
  rw [if_pos ⟨rfl, rfl, hall⟩, hl]
  rfl

theorem Filled.definitions_shown (hf : s.Filled place.run) (h : s.Scoped) {a : ResultSet}
    (n : s.Named place symbol a) (hl : l ∈ s.definitionsAt place) :
    ⟨symbol, .definition, l⟩ ∈ s.occurrencesOf place.run symbol (some .definition) := by
  unfold definitionsAt at hl
  split at hl
  next bucket hb =>
    obtain ⟨r, hr, hrun, hbucket, hloc⟩ := mem_definitionsIn_iff.mp hl
    have hp : (r.2, Role.definition) ∈ s.passItems .definitions :=
      List.mem_map.mpr ⟨r, hr, rfl⟩
    have hfound := n.mem_found .definitions hb hp hrun hbucket
    have hsplit : s.foundIn place.run = s.found place.run .definitions ++
        (s.found place.run .references ++ s.found place.run .implementations ++
          s.found place.run .types) := by simp only [foundIn, List.append_assoc]
    obtain ⟨role, hfront, ho⟩ := hf.among_first h hsplit hfound
    obtain ⟨_, hrole⟩ := found_role hfront
    change role = .definition at hrole
    subst hrole
    exact mem_occurrencesOf ho hloc fun _ he => (Option.some.inj he).symm
  next => cases hl

theorem Filled.references_shown (hf : s.Filled place.run) (h : s.Scoped) {a : ResultSet}
    (n : s.Named place symbol a) (hl : l ∈ s.referencesAt place true) :
    ∃ role, ⟨symbol, role, l⟩ ∈ s.occurrencesOf place.run symbol none ∧
      (role = .definition ∨ role = .reference) := by
  unfold referencesAt at hl
  split at hl
  next bucket hb =>
    obtain ⟨r, hr, hrun, hbucket, hloc⟩ := mem_referencesIn_iff.mp hl
    have hp : (r.2.toItem, Pass.references.referenceRole r.2.isDefinition) ∈
        s.passItems .references := List.mem_map.mpr ⟨r, hr, rfl⟩
    have hfound := n.mem_found .references hb hp hrun hbucket
    have hsplit : s.foundIn place.run = (s.found place.run .definitions ++
        s.found place.run .references) ++
          (s.found place.run .implementations ++ s.found place.run .types) := by
      simp only [foundIn, List.append_assoc]
    obtain ⟨role, hfront, ho⟩ := hf.among_first h hsplit (List.mem_append_right _ hfound)
    refine ⟨role, mem_occurrencesOf ho hloc (by simp), ?_⟩
    rcases List.mem_append.mp hfront with hfront | hfront
    · obtain ⟨_, hrole⟩ := found_role hfront
      exact .inl hrole
    · obtain ⟨isDefinition, hrole⟩ := found_role hfront
      cases isDefinition with
      | true => exact .inl hrole
      | false => exact .inr hrole
  next => cases hl

theorem Filled.targets_shown (hf : s.Filled place.run) (h : s.Scoped) {a : ResultSet}
    (n : s.Named place symbol a) {pass : Pass} (hpass : pass ≠ .definitions)
    (hb : s.bucketAt? place pass.bucketKind = some bucket)
    (hl : l ∈ s.referencesIn place.run bucket true) :
    ∃ role, ⟨symbol, role, l⟩ ∈ s.occurrencesOf place.run symbol none := by
  obtain ⟨r, hr, hrun, hbucket, hloc⟩ := mem_referencesIn_iff.mp hl
  have hp : (r.2.toItem, pass.referenceRole r.2.isDefinition) ∈ s.passItems pass := by
    cases pass with
    | definitions => exact absurd rfl hpass
    | _ => exact List.mem_map.mpr ⟨r, hr, rfl⟩
  have hfound := n.mem_found pass hb hp hrun hbucket
  have hin : ⟨place.run, symbol, r.2.document, r.2.range,
      pass.referenceRole r.2.isDefinition⟩ ∈ s.foundIn place.run := by
    simp only [foundIn, List.mem_append]
    cases pass <;> simp [hfound]
  obtain ⟨role, -, ho⟩ := hf.among_first h (List.append_nil _).symm hin
  exact ⟨role, mem_occurrencesOf ho hloc (by simp)⟩

/-- A bucket holds a location as a definition and not as a reference. -/
def OnlyDefines (s : Store) (run bucket : Int) (l : Location) : Prop :=
  l ∈ s.definitionsIn run bucket ∧ l ∉ s.referencesIn run bucket true

theorem Filled.targetsAt_shown (hf : s.Filled place.run) (h : s.Scoped) {a : ResultSet}
    (n : s.Named place symbol a) (pass : Pass) (hpass : pass ≠ .definitions)
    (hl : l ∈ s.targetsAt place pass.bucketKind) :
    (∃ o ∈ s.occurrencesOf place.run symbol none, o.location = l) ∨
      ∃ bucket, s.bucketAt? place pass.bucketKind = some bucket ∧
        s.OnlyDefines place.run bucket l := by
  unfold targetsAt at hl
  split at hl
  next bucket hb =>
    by_cases href : l ∈ s.referencesIn place.run bucket true
    · obtain ⟨role, ho⟩ := hf.targets_shown h n hpass hb href
      exact .inl ⟨_, ho, rfl⟩
    · have hdef := (List.mem_append.mp hl).resolve_right href
      exact .inr ⟨bucket, hb, hdef, href⟩
  next => cases hl

end Store

def namedLines : List (List UInt8) :=
  ["[\"vertex\",\"document\",1,\"a\",null]", "[\"vertex\",\"range\",2,[0,4],[0,7]]",
    "[\"vertex\",\"resultSet\",3]", "[\"vertex\",\"moniker\",4,\"npm\",\"a:f\",null,null]",
    "[\"edge\",\"contains\",1,[2]]", "[\"edge\",\"next\",2,3]",
    "[\"edge\",\"moniker\",3,4]"].map fun line => line.toUTF8.toList

/-- The function, followed by edges that put it into buckets. -/
def namedDump (edges : List (List UInt8)) : ByteStream := .ofLines (namedLines ++ edges)

def namedReport (edges : Nat) (counts : DerivationCounts) : Report where
  run := 1
  lines := edges + 7
  vertices := 4
  edges := edges + 3
  derivation := some counts

def namedStore (a : ResultSet) (definitions : Table Item) (references : Table ReferenceItem)
    (occurrences : List Occurrence) : Store where
  runs := ⟨1, [(1, { repo := none, commit := none, createdAt := 0 })]⟩
  documents := ⟨1, [(1, ⟨1, "a", none⟩)]⟩
  monikers := ⟨1, [(1, ⟨1, "npm", "a:f", none, none⟩)]⟩
  symbols := ⟨1, [(1, ⟨"npm", "a:f", "f", none⟩)]⟩
  links := [⟨1, 1⟩]
  resultSets := ⟨1, [(1, a)]⟩
  ranges := ⟨1, [(1, ⟨1, .ofCoords 0 4 0 7, some 1⟩)]⟩
  definitionItems := definitions
  referenceItems := references
  occurrences := occurrences
  searchIndex := [⟨1, "f", "a:f"⟩]

def namedPlace : Place := ⟨1, "a", ⟨0, 5⟩⟩

def namedDetails : MonikerDetails := ⟨1, ⟨1, "npm", "a:f", none, none⟩, some 1, none⟩

def namedLocation : Location := ⟨"a", .ofCoords 0 4 0 7⟩

def historyOf (dump : ByteStream) : History := [(.ingest {} {} dump, {})]

theorem historyOf_derived {dump : ByteStream} {report : Report} {t : Store}
    {counts : DerivationCounts} (hi : ingest {} {} dump {} .empty = (.ok report, t))
    (hd : report.derivation = some counts) :
    (historyOf dump).store = t ∧ (historyOf dump).Derived report.run :=
  ⟨Operation.after_ingest hi, .inl (Operation.derives_ingest hi hd)⟩

theorem History.filled {history : History} {run : Int} (hd : history.Derived run)
    (live : history.store.runs.has run = true) : history.store.Filled run :=
  (history.fresh live).1 hd

/-- Once the occurrences of a run are derived, every definition of a position is an occurrence of
the symbol there as a definition, and every reference one as a definition or a reference. -/
theorem definitions_and_references_have_occurrences (history : History) {place : Place}
    {details : MonikerDetails} {symbol : Int} (hd : history.Derived place.run)
    (hm : history.store.monikerAt? place = some details) (hs : details.symbol = some symbol) :
    (∀ l ∈ history.store.definitionsAt place,
      ∃ o ∈ history.store.occurrencesOf place.run symbol (some .definition), o.location = l) ∧
    ∀ l ∈ history.store.referencesAt place true,
      ∃ o ∈ history.store.occurrencesOf place.run symbol none, o.location = l ∧
        (o.role = .definition ∨ o.role = .reference) := by
  have h := history.reachable.scoped
  obtain ⟨a, n⟩ := Store.named_of_monikerAt? h hm hs
  have hf := History.filled hd (n.live h)
  refine ⟨fun l hl => ?_, fun l hl => ?_⟩
  · exact ⟨_, hf.definitions_shown h n hl, rfl⟩
  · obtain ⟨role, ho, hrole⟩ := hf.references_shown h n hl
    exact ⟨_, ho, rfl, hrole⟩

/-- A bucket for the definition of the function and one for its references. -/
def bucketLines : List (List UInt8) :=
  ["[\"edge\",\"textDocument/definition\",3,6]",
    "[\"edge\",\"textDocument/references\",3,7]"].map fun line => line.toUTF8.toList

def definingLine : List UInt8 := "[\"edge\",\"item\",6,[2],null,null]".toUTF8.toList

def referringLine : List UInt8 := "[\"edge\",\"item\",7,[2],null,\"references\"]".toUTF8.toList

/-- The function is defined in one bucket and a reference in the other. -/
def definedLines : List (List UInt8) := bucketLines ++ [definingLine, referringLine]

def definedStore : Store :=
  namedStore { run := 1, definitions := some 6, references := some 7, moniker := some 1 }
    ⟨1, [(1, ⟨1, 6, 1, 1⟩)]⟩ ⟨1, [(1, ⟨⟨1, 7, 1, 1⟩, false⟩)]⟩ [⟨1, 1, 1, 1, .definition⟩]

/-- The function is an occurrence as its own definition, also where it is a mere reference. -/
theorem named_definition_shown :
    namedLocation ∈ definedStore.definitionsAt namedPlace ∧
      (∃ o ∈ definedStore.occurrencesOf 1 1 (some .definition), o.location = namedLocation) ∧
      namedLocation ∈ definedStore.referencesAt namedPlace true ∧
      ∃ o ∈ definedStore.occurrencesOf 1 1 none, o.location = namedLocation ∧
        (o.role = .definition ∨ o.role = .reference) := by
  have hi : ingest {} {} (namedDump definedLines) {} .empty =
      (.ok (namedReport 4 ⟨1, 0, 0, 0⟩), definedStore) := by decide +kernel
  obtain ⟨hstore, hd⟩ := historyOf_derived hi rfl
  have hm : definedStore.monikerAt? namedPlace = some namedDetails := by decide +kernel
  have hdef : namedLocation ∈ definedStore.definitionsAt namedPlace := by decide +kernel
  have href : namedLocation ∈ definedStore.referencesAt namedPlace true := by decide +kernel
  have shown := definitions_and_references_have_occurrences _ hd (hstore ▸ hm) rfl
  rw [hstore] at shown
  exact ⟨hdef, shown.1 _ hdef, href, shown.2 _ href⟩

/-- Once the occurrences of a run are derived, every implementation and every type definition of a
position is the place of an occurrence of the symbol there, unless its bucket holds it only as a
definition. -/
theorem implementations_and_types_have_occurrences (history : History) {place : Place}
    {details : MonikerDetails} {symbol : Int} (hd : history.Derived place.run)
    (hm : history.store.monikerAt? place = some details) (hs : details.symbol = some symbol) :
    (∀ l ∈ history.store.implementationsAt place,
      (∃ o ∈ history.store.occurrencesOf place.run symbol none, o.location = l) ∨
        ∃ bucket, history.store.bucketAt? place .implementation = some bucket ∧
          history.store.OnlyDefines place.run bucket l) ∧
    ∀ l ∈ history.store.typeDefinitionsAt place,
      (∃ o ∈ history.store.occurrencesOf place.run symbol none, o.location = l) ∨
        ∃ bucket, history.store.bucketAt? place .typeDefinition = some bucket ∧
          history.store.OnlyDefines place.run bucket l := by
  have h := history.reachable.scoped
  obtain ⟨a, n⟩ := Store.named_of_monikerAt? h hm hs
  have hf := History.filled hd (n.live h)
  refine ⟨fun l hl => ?_, fun l hl => ?_⟩
  · exact hf.targetsAt_shown h n .implementations nofun hl
  · exact hf.targetsAt_shown h n .types nofun hl

def implementationLine : List UInt8 :=
  "[\"edge\",\"textDocument/implementation\",3,6]".toUTF8.toList

/-- The function as an item of the bucket, with a property. -/
def propertyLine (property : String) : List UInt8 :=
  ("[\"edge\",\"item\",6,[2],null," ++ property ++ "]").toUTF8.toList

def implementedStore (definitions : Table Item) (references : Table ReferenceItem)
    (occurrences : List Occurrence) : Store :=
  namedStore { run := 1, implementation := some 6, moniker := some 1 } definitions references
    occurrences

def referredStore : Store :=
  implementedStore {} ⟨1, [(1, ⟨⟨1, 6, 1, 1⟩, false⟩)]⟩ [⟨1, 1, 1, 1, .implementation⟩]

/-- An implementation that is a reference in its bucket is an occurrence. -/
theorem named_implementation_shown :
    namedLocation ∈ referredStore.implementationsAt namedPlace ∧
      ∃ o ∈ referredStore.occurrencesOf 1 1 none, o.location = namedLocation := by
  have hi : ingest {} {} (namedDump [implementationLine, propertyLine "null"]) {} .empty =
      (.ok (namedReport 2 ⟨0, 0, 1, 0⟩), referredStore) := by decide +kernel
  obtain ⟨hstore, hd⟩ := historyOf_derived hi rfl
  have hm : referredStore.monikerAt? namedPlace = some namedDetails := by decide +kernel
  have hl : namedLocation ∈ referredStore.implementationsAt namedPlace := by decide +kernel
  have hbucket : referredStore.bucketAt? namedPlace .implementation = some 6 := by decide +kernel
  have href : namedLocation ∈ referredStore.referencesIn 1 6 true := by decide +kernel
  have shown := (implementations_and_types_have_occurrences _ hd (hstore ▸ hm) rfl).1
  rw [hstore] at shown
  refine ⟨hl, (shown _ hl).resolve_right ?_⟩
  rintro ⟨bucket, hb, -, hn⟩
  cases Option.some.inj (hbucket.symm.trans hb)
  exact hn href

def shownNowhere : Store := implementedStore ⟨1, [(1, ⟨1, 6, 1, 1⟩)]⟩ {} []

/-- An implementation that its bucket holds as a definition is nowhere among the occurrences. -/
theorem implementation_without_occurrence :
    ¬ ∀ (history : History) (place : Place) (details : MonikerDetails) (symbol : Int),
      history.Derived place.run → history.store.monikerAt? place = some details →
      details.symbol = some symbol → ∀ l ∈ history.store.implementationsAt place,
      ∃ o ∈ history.store.occurrencesOf place.run symbol none, o.location = l := by
  intro claim
  have hi : ingest {} {} (namedDump [implementationLine, propertyLine "\"definitions\""]) {}
      .empty = (.ok (namedReport 2 ⟨0, 0, 0, 0⟩), shownNowhere) := by decide +kernel
  obtain ⟨hstore, hd⟩ := historyOf_derived hi rfl
  have hm : shownNowhere.monikerAt? namedPlace = some namedDetails := by decide +kernel
  have hl : namedLocation ∈ shownNowhere.implementationsAt namedPlace := by decide +kernel
  have hnone : shownNowhere.occurrencesOf namedPlace.run 1 none = [] := by decide +kernel
  have shown := claim _ namedPlace namedDetails 1 hd (hstore ▸ hm) rfl
  rw [hstore] at shown
  obtain ⟨o, ho, -⟩ := shown namedLocation hl
  rw [hnone] at ho
  cases ho

end SymbolAtlas
