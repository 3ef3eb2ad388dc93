import SymbolAtlas.Proofs.Outcome
import SymbolAtlas.Store.Removal

/-!
What each statement makes of a store when it succeeds, and exactly when it does.
-/

namespace SymbolAtlas

/-- A statement may write at all, and may touch these rows. -/
def Access.Allows (access : Access) (s : Store) (touches : List Touch) : Prop :=
  access.writeRefusal? = none ∧ access.permit s touches = .ok ()

namespace Store

variable (s : Store)

def withRun (about : RunMeta) (createdAt : Int) : Store :=
  { s with
    runs := s.runs.insert { repo := about.repo, commit := about.commit, createdAt := createdAt } }

def describing (run : Int) (projectRoot lsifVersion : Option String) : Store :=
  { s with runs := s.runs.modify run fun r =>
      { r with
        projectRoot := projectRoot <|> r.projectRoot
        lsifVersion := lsifVersion <|> r.lsifVersion } }

def withDocument (run : Int) (uri : String) (languageId : Option String) : Store :=
  { s with documents := s.documents.insert ⟨run, uri, languageId⟩ }

def withHover (run : Int) (contents : String) : Store :=
  { s with hovers := s.hovers.insert ⟨run, contents⟩ }

def withPackage (run : Int) (name : String) (version manager : Option String) : Store :=
  { s with packages := s.packages.insert ⟨run, name, version, manager⟩ }

def withMonikerRow (run : Int) (scheme identifier : String) (kind : Option String)
    (package : Option Int) : Store :=
  { s with monikers := s.monikers.insert ⟨run, scheme, identifier, kind, package⟩ }

def settingPackage (moniker package : Int) : Store :=
  { s with monikers := s.monikers.modify moniker fun m => { m with package := some package } }

/-- The number of the symbol with the given name, also if it has to be made. -/
def symbolFor (scheme identifier : String) : Int :=
  match s.symbolNamed? scheme identifier with
  | some (id, _) => id
  | none => s.symbols.last + 1

def withSymbol (scheme identifier : String) (kind : Option String) : Store :=
  { s with
    symbols :=
      match s.symbolNamed? scheme identifier with
      | some _ => s.symbols.skip
      | none => s.symbols.insert ⟨scheme, identifier, qualifiedName identifier, kind⟩
    searchIndex :=
      match s.symbolNamed? scheme identifier with
      | some _ => s.searchIndex
      | none => s.searchIndex ++ [⟨s.symbols.last + 1, qualifiedName identifier, identifier⟩] }

def withLink (moniker symbol : Int) : Store := { s with links := s.links ++ [⟨moniker, symbol⟩] }

/-- A moniker with the symbol of its name, and the link between them. -/
def withMoniker (run : Int) (scheme identifier : String) (kind : Option String)
    (package : Option Int) : Store :=
  ((s.withMonikerRow run scheme identifier kind package).withSymbol scheme identifier
    kind).withLink (s.monikers.last + 1) (s.symbolFor scheme identifier)

def withResultSet (run : Int) : Store :=
  { s with resultSets := s.resultSets.insert { run := run } }

def settingBucket (resultSet : Int) (kind : BucketKind) (bucket : Int) : Store :=
  { s with resultSets := s.resultSets.modify resultSet fun r => r.setBucket bucket kind }

def settingHover (resultSet hover : Int) : Store :=
  { s with resultSets := s.resultSets.modify resultSet fun r => { r with hover := some hover } }

def settingMoniker (resultSet moniker : Int) : Store :=
  { s with resultSets := s.resultSets.modify resultSet fun r =>
      { r with moniker := some moniker } }

def withRange (document : Int) (span : Span) (resultSet : Option Int) : Store :=
  { s with ranges := s.ranges.insert ⟨document, span, resultSet⟩ }

def settingResultSet (range resultSet : Int) : Store :=
  { s with ranges := s.ranges.modify range fun r => { r with resultSet := some resultSet } }

def withDefinition (item : Item) : Store :=
  { s with definitionItems := s.definitionItems.insert item }

def withReference (item : Item) (isDefinition : Bool) : Store :=
  { s with referenceItems := s.referenceItems.insert { item with isDefinition := isDefinition } }

/-- The occurrences after one pass over a run. -/
def withPass (run : Int) (pass : Pass) : Store :=
  { s with occurrences := (s.found run pass).foldl addOccurrence s.occurrences }

def withoutOccurrences (run : Int) : Store :=
  { s with occurrences := s.occurrences.filter fun o => o.run != run }

end Store

variable {access : Access} {s t : Store}

theorem addRun_ok_iff {about : RunMeta} {id : Int} :
    addRun about access s = (.ok id, t) ↔
      access.Allows s [(.runs, .insert)] ∧ s.runs.last + 1 = id ∧
        s.withRun about (about.createdAt.getD access.clock) = t := by
  simp only [addRun, statement_ok_iff, except_check_ok_iff, except_pure_ok_iff, Prod.mk.injEq,
    Access.Allows, Store.withRun, Table.last_insert, and_assoc]

theorem describeRun_ok_iff {run : Int} {projectRoot lsifVersion : Option String} {u : Unit} :
    describeRun run projectRoot lsifVersion access s = (.ok u, t) ↔
      access.Allows s (if s.runs.has run then [(.runs, .update)] else []) ∧
        s.describing run projectRoot lsifVersion = t := by
  cases h : s.runs.has run with
  | false =>
    simp [describeRun, statement_ok_iff, except_pure_ok_iff, h, Access.Allows, Access.permit,
      Store.describing]
  | true =>
    simp only [describeRun, statement_ok_iff, except_check_ok_iff, except_pure_ok_iff, h,
      if_true, Access.Allows, Store.describing, Prod.mk.injEq, true_and, and_assoc]

theorem addDocument_ok_iff {run id : Int} {uri : String} {languageId : Option String} :
    addDocument run uri languageId access s = (.ok id, t) ↔
      access.Allows s [(.documents, .insert)] ∧ s.runs.has run = true ∧
        s.documents.last + 1 = id ∧ s.withDocument run uri languageId = t := by
  simp only [addDocument, statement_ok_iff, except_check_ok_iff, require_ok_iff,
    except_pure_ok_iff, Prod.mk.injEq, Access.Allows, Store.withDocument,
    Table.last_insert, and_assoc]

theorem addHover_ok_iff {run id : Int} {contents : String} :
    addHover run contents access s = (.ok id, t) ↔
      access.Allows s [(.hovers, .insert)] ∧ s.runs.has run = true ∧
        s.hovers.last + 1 = id ∧ s.withHover run contents = t := by
  simp only [addHover, statement_ok_iff, except_check_ok_iff, require_ok_iff,
    except_pure_ok_iff, Prod.mk.injEq, Access.Allows, Store.withHover, Table.last_insert,
    and_assoc]

theorem addPackage_ok_iff {run id : Int} {name : String} {version manager : Option String} :
    addPackage run name version manager access s = (.ok id, t) ↔
      access.Allows s [(.packages, .insert)] ∧ s.runs.has run = true ∧
        s.packages.last + 1 = id ∧ s.withPackage run name version manager = t := by
  simp only [addPackage, statement_ok_iff, except_check_ok_iff, require_ok_iff,
    except_pure_ok_iff, Prod.mk.injEq, Access.Allows, Store.withPackage, Table.last_insert,
    and_assoc]

theorem addMoniker_ok_iff {run id : Int} {scheme identifier : String} {kind : Option String}
    {package : Option Int} :
    addMoniker run scheme identifier kind package access s = (.ok id, t) ↔
      access.Allows s [(.monikers, .insert)] ∧
        (s.runs.has run && s.packages.hasOption package) = true ∧
        s.monikers.last + 1 = id ∧ s.withMonikerRow run scheme identifier kind package = t := by
  simp only [addMoniker, statement_ok_iff, except_check_ok_iff, require_ok_iff,
    except_pure_ok_iff, Prod.mk.injEq, Access.Allows, Store.withMonikerRow, Table.last_insert,
    and_assoc]

theorem setPackage_ok_iff {moniker package : Int} {u : Unit} :
    setPackage moniker package access s = (.ok u, t) ↔
      access.Allows s (if s.monikers.has moniker then [(.monikers, .update)] else []) ∧
        (s.monikers.has moniker = true → s.packages.has package = true) ∧
        s.settingPackage moniker package = t := by
  cases h : s.monikers.has moniker with
  | false =>
    simp [setPackage, statement_ok_iff, except_pure_ok_iff, h, Access.Allows, Access.permit,
      Store.settingPackage]
  | true =>
    simp only [setPackage, statement_ok_iff, except_check_ok_iff, require_ok_iff,
      except_pure_ok_iff, h, if_true, Access.Allows, Store.settingPackage, Prod.mk.injEq,
      true_and, forall_const, and_assoc]

theorem internSymbol_ok_iff {scheme identifier : String} {kind : Option String} {id : Int} :
    internSymbol scheme identifier kind access s = (.ok id, t) ↔
      access.Allows s [(.symbols, .insert)] ∧ s.symbolFor scheme identifier = id ∧
        s.withSymbol scheme identifier kind = t := by
  cases h : s.symbolNamed? scheme identifier with
  | none =>
    simp only [internSymbol, statement_ok_iff, except_check_ok_iff, except_pure_ok_iff, h,
      Prod.mk.injEq, Access.Allows, Store.symbolFor, Store.withSymbol, Table.last_insert,
      and_assoc]
  | some p =>
    simp only [internSymbol, statement_ok_iff, except_check_ok_iff, except_pure_ok_iff, h,
      Prod.mk.injEq, Access.Allows, Store.symbolFor, Store.withSymbol, and_assoc]

theorem linkSymbol_ok_iff {moniker symbol : Int} {u : Unit} :
    linkSymbol moniker symbol access s = (.ok u, t) ↔
      access.Allows s [(.links, .insert)] ∧ (s.symbolOf? moniker).isNone = true ∧
        (s.monikers.has moniker && s.symbols.has symbol) = true ∧
        s.withLink moniker symbol = t := by
  simp only [linkSymbol, statement_ok_iff, except_check_ok_iff, require_ok_iff,
    except_pure_ok_iff, Prod.mk.injEq, true_and, Access.Allows, Store.withLink, and_assoc]

theorem addResultSet_ok_iff {run id : Int} :
    addResultSet run access s = (.ok id, t) ↔
      access.Allows s [(.resultSets, .insert)] ∧ s.runs.has run = true ∧
        s.resultSets.last + 1 = id ∧ s.withResultSet run = t := by
  simp only [addResultSet, statement_ok_iff, except_check_ok_iff, require_ok_iff,
    except_pure_ok_iff, Prod.mk.injEq, Access.Allows, Store.withResultSet, Table.last_insert,
    and_assoc]

theorem setBucket_ok_iff {resultSet bucket : Int} {kind : BucketKind} {u : Unit} :
    setBucket resultSet kind bucket access s = (.ok u, t) ↔
      access.Allows s (if s.resultSets.has resultSet then [(.resultSets, .update)] else []) ∧
        s.settingBucket resultSet kind bucket = t := by
  cases h : s.resultSets.has resultSet with
  | false =>
    simp [setBucket, statement_ok_iff, except_pure_ok_iff, h, Access.Allows, Access.permit,
      Store.settingBucket]
  | true =>
    simp only [setBucket, statement_ok_iff, except_check_ok_iff, except_pure_ok_iff, h,
      if_true, Access.Allows, Store.settingBucket, Prod.mk.injEq, true_and, and_assoc]

theorem setHover_ok_iff {resultSet hover : Int} {u : Unit} :
    setHover resultSet hover access s = (.ok u, t) ↔
      access.Allows s (if s.resultSets.has resultSet then [(.resultSets, .update)] else []) ∧
        (s.resultSets.has resultSet = true → s.hovers.has hover = true) ∧
        s.settingHover resultSet hover = t := by
  cases h : s.resultSets.has resultSet with
  | false =>
    simp [setHover, statement_ok_iff, except_pure_ok_iff, h, Access.Allows, Access.permit,
      Store.settingHover]
  | true =>
    simp only [setHover, statement_ok_iff, except_check_ok_iff, require_ok_iff,
      except_pure_ok_iff, h, if_true, Access.Allows, Store.settingHover, Prod.mk.injEq,
      true_and, forall_const, and_assoc]

theorem setMoniker_ok_iff {resultSet moniker : Int} {u : Unit} :
    setMoniker resultSet moniker access s = (.ok u, t) ↔
      access.Allows s (if s.resultSets.has resultSet then [(.resultSets, .update)] else []) ∧
        (s.resultSets.has resultSet = true → s.monikers.has moniker = true) ∧
        s.settingMoniker resultSet moniker = t := by
  cases h : s.resultSets.has resultSet with
  | false =>
    simp [setMoniker, statement_ok_iff, except_pure_ok_iff, h, Access.Allows, Access.permit,
      Store.settingMoniker]
  | true =>
    simp only [setMoniker, statement_ok_iff, except_check_ok_iff, require_ok_iff,
      except_pure_ok_iff, h, if_true, Access.Allows, Store.settingMoniker, Prod.mk.injEq,
      true_and, forall_const, and_assoc]

theorem addRange_ok_iff {document id : Int} {span : Span} {resultSet : Option Int} :
    addRange document span resultSet access s = (.ok id, t) ↔
      access.Allows s [(.ranges, .insert)] ∧
        (s.documents.has document && s.resultSets.hasOption resultSet) = true ∧
        s.ranges.last + 1 = id ∧ s.withRange document span resultSet = t := by
  simp only [addRange, statement_ok_iff, except_check_ok_iff, require_ok_iff,
    except_pure_ok_iff, Prod.mk.injEq, Access.Allows, Store.withRange, Table.last_insert,
    and_assoc]

theorem setResultSet_ok_iff {range resultSet : Int} {u : Unit} :
    setResultSet range resultSet access s = (.ok u, t) ↔
      access.Allows s (if s.ranges.has range then [(.ranges, .update)] else []) ∧
        (s.ranges.has range = true → s.resultSets.has resultSet = true) ∧
        s.settingResultSet range resultSet = t := by
  cases h : s.ranges.has range with
  | false =>
    simp [setResultSet, statement_ok_iff, except_pure_ok_iff, h, Access.Allows, Access.permit,
      Store.settingResultSet]
  | true =>
    simp only [setResultSet, statement_ok_iff, except_check_ok_iff, require_ok_iff,
      except_pure_ok_iff, h, if_true, Access.Allows, Store.settingResultSet, Prod.mk.injEq,
      true_and, forall_const, and_assoc]

theorem addDefinition_ok_iff {item : Item} {u : Unit} :
    addDefinition item access s = (.ok u, t) ↔
      access.Allows s [(.definitionItems, .insert)] ∧ s.itemNamesRows item = true ∧
        s.withDefinition item = t := by
  simp only [addDefinition, statement_ok_iff, except_check_ok_iff, require_ok_iff,
    except_pure_ok_iff, Prod.mk.injEq, true_and, Access.Allows, Store.withDefinition, and_assoc]

theorem addReference_ok_iff {item : Item} {isDefinition : Bool} {u : Unit} :
    addReference item isDefinition access s = (.ok u, t) ↔
      access.Allows s [(.referenceItems, .insert)] ∧ s.itemNamesRows item = true ∧
        s.withReference item isDefinition = t := by
  simp only [addReference, statement_ok_iff, except_check_ok_iff, require_ok_iff,
    except_pure_ok_iff, Prod.mk.injEq, true_and, Access.Allows, Store.withReference, and_assoc]

theorem derivePass_ok_iff {run : Int} {pass : Pass} {count : Nat} :
    derivePass run pass access s = (.ok count, t) ↔
      access.Allows s (if (s.found run pass).isEmpty then [] else [(.occurrences, .insert)]) ∧
        (s.withPass run pass).occurrences.length - s.occurrences.length = count ∧
        s.withPass run pass = t := by
  cases h : (s.found run pass).isEmpty with
  | false =>
    simp only [derivePass, statement_ok_iff, except_check_ok_iff, except_pure_ok_iff, h,
      Bool.not_false, if_true, Bool.false_eq_true, if_false, Access.Allows, Store.withPass,
      Prod.mk.injEq, and_assoc]
  | true =>
    simp only [derivePass, statement_ok_iff, except_pure_ok_iff, h, Bool.not_true,
      Bool.false_eq_true, if_false, if_true, Access.Allows, Access.permit, Store.withPass,
      Prod.mk.injEq, and_true]

theorem clearOccurrences_ok_iff {run : Int} {u : Unit} :
    clearOccurrences run access s = (.ok u, t) ↔
      access.Allows s
        (if s.occurrences.any fun o => o.run == run then [(.occurrences, .delete)] else []) ∧
        s.withoutOccurrences run = t := by
  cases h : s.occurrences.any fun o => o.run == run with
  | false =>
    simp only [clearOccurrences, statement_ok_iff, except_pure_ok_iff, h, Bool.false_eq_true,
      if_false, Access.Allows, Access.permit, Store.withoutOccurrences, Prod.mk.injEq,
      true_and, and_true]
  | true =>
    simp only [clearOccurrences, statement_ok_iff, except_check_ok_iff, except_pure_ok_iff, h,
      if_true, Access.Allows, Store.withoutOccurrences, Prod.mk.injEq, true_and, and_assoc]

theorem pruneSymbols_ok_iff {count : Nat} :
    pruneSymbols access s = (.ok count, t) ↔
      access.Allows s s.pruneTouches ∧ s.orphanCount = count ∧ s.pruned = t := by
  simp only [pruneSymbols, statement_ok_iff, except_check_ok_iff, except_pure_ok_iff,
    Prod.mk.injEq, Access.Allows, and_assoc]

theorem removeRun_ok_iff {run : Int} {found : Bool} :
    removeRun run access s = (.ok found, t) ↔
      access.Allows s (if s.runs.has run then s.removalTouches run else []) ∧
        s.runs.has run = found ∧ (if s.runs.has run then s.withoutRun run else s) = t := by
  cases h : s.runs.has run with
  | false =>
    simp [removeRun, statement_ok_iff, except_pure_ok_iff, h, Access.Allows, Access.permit]
  | true =>
    simp only [removeRun, statement_ok_iff, except_check_ok_iff, except_pure_ok_iff, h,
      Bool.not_true, Bool.false_eq_true, if_false, if_true, Access.Allows, Prod.mk.injEq,
      and_assoc]

end SymbolAtlas
