import SymbolAtlas.Proofs.Creation
import SymbolAtlas.Store.Upgrade

namespace SymbolAtlas

namespace Sql

theorem sameName_iff {a b : String} : sameName a b = true ↔ a.toLower = b.toLower :=
  decide_eq_true_iff

theorem sameName_eq (a b : String) :
    sameName a b = (a.toList.map Char.toLower == b.toList.map Char.toLower) := by
  rw [Bool.eq_iff_iff, sameName_iff, beq_iff_eq, ← String.toList_map, ← String.toList_map,
    String.toList_inj]
  rfl

namespace Definition

def isRelation (name : String) : Definition → Bool
  | .relation r => sameName r.name name
  | _ => false

def isTrigger (name : String) : Definition → Bool
  | .trigger t => sameName t.name name
  | _ => false

end Definition

namespace Catalog

variable {c : Catalog} {root : Nat} {definition : Definition} {a b name : String}

theorem hasRelation_eq : c.hasRelation name =
    (sameName name "sqlite_master" || sameName name "sqlite_schema" ||
      c.relations.any fun r => sameName r.1.name name) := by
  unfold hasRelation relation? entry?
  split
  next h => rw [h]; rfl
  next h =>
    rw [eq_false_of_ne_true h, Option.isSome_map, List.isSome_find?]
    rfl

theorem hasRelation_congr (h : sameName a b = true) : c.hasRelation a = c.hasRelation b := by
  simp only [hasRelation_eq, sameName]
  rw [sameName_iff.mp h]

theorem hasTrigger_congr (h : sameName a b = true) : c.hasTrigger a = c.hasTrigger b := by
  simp only [hasTrigger, sameName]
  rw [sameName_iff.mp h]

theorem hasRelation_add : (c.add root definition).hasRelation name =
    (c.hasRelation name || definition.isRelation name) := by
  cases definition <;> simp [add, hasRelation_eq, Definition.isRelation, Bool.or_assoc]

theorem hasTrigger_add : (c.add root definition).hasTrigger name =
    (c.hasTrigger name || definition.isTrigger name) := by
  cases definition <;> simp [add, hasTrigger, Definition.isTrigger]

end Catalog

/-- A relation or a trigger that a statement is about. -/
inductive Subject where
  | relation (name : String) (isVirtual : Bool)
  | trigger (name table : String)
deriving DecidableEq

namespace Subject

def isRelation (name : String) : Subject → Bool
  | .relation a _ => sameName a name
  | _ => false

def isTrigger (name : String) : Subject → Bool
  | .trigger a _ => sameName a name
  | _ => false

end Subject

def Parser.Heading.subject? : Parser.Heading → Option Subject
  | .table _ t | .view _ t => some (.relation t.label false)
  | .virtualTable _ t => some (.relation t.label true)
  | .trigger head => some (.trigger head.name.label head.table)
  | .index _ _ _ => none

def subject? (text : String) : Option Subject := (heading? text).bind (·.subject?)

/-- What a text with these characters is about. -/
def subjectOf? (cs : List Char) : Option Subject :=
  match Parser.heading { tokens := settleWindows none (readTokens (cs.length + 1) 0 cs) } with
  | .ok (head, _) => head.subject?
  | .error _ => none

theorem subject?_eq (text : String) : subject? text = subjectOf? text.toList := by
  unfold subject? heading? subjectOf? tokens
  rw [String.length_toList]
  generalize Parser.heading _ = outcome
  cases outcome <;> rfl

theorem any_toList {α : Type} (o : Option α) (p : α → Bool) : o.toList.any p = o.any p := by
  cases o with
  | none => rfl
  | some a => simp

theorem toList_eq_of_eq {s : String} {cs : List Char} (h : s = String.ofList cs) :
    s.toList = cs := by
  rw [h, String.toList_ofList]

namespace Parser.Heading

variable {head : Heading} {definition : Definition} {name : String} {c : Catalog}

theorem Makes.isRelation (h : head.Makes definition) :
    definition.isRelation name = head.subject?.any (·.isRelation name) := by
  cases h with
  | table hn | view hn | virtualTable hn => exact congrArg (sameName · name) hn
  | index | trigger => rfl

theorem Makes.isTrigger (h : head.Makes definition) :
    definition.isTrigger name = head.subject?.any (·.isTrigger name) := by
  cases h with
  | trigger hn => exact congrArg (sameName · name) hn
  | table | view | virtualTable | index => rfl

theorem Makes.relation {isVirtual : Bool} (h : head.Makes definition)
    (hs : head.subject? = some (.relation name isVirtual)) :
    ∃ r, definition = .relation r ∧ r.name = name := by
  cases h with
  | table hn | view hn | virtualTable hn =>
    cases hs
    exact ⟨_, rfl, hn⟩
  | index | trigger => cases hs

theorem Makes.virtualTable_subject {t : VirtualDef}
    (h : head.Makes (.relation (.virtualTable t))) :
    head.subject? = some (.relation t.name true) := by
  cases h with
  | virtualTable hn =>
    rw [hn]
    rfl

theorem hasRelation_of_isThere (h : head.isThere c = true)
    (hs : head.subject?.any (·.isRelation name) = true) : c.hasRelation name = true := by
  cases head with
  | table m t | view m t | virtualTable m t => exact (Catalog.hasRelation_congr hs).symm.trans h
  | index | trigger => cases hs

theorem hasTrigger_of_isThere (h : head.isThere c = true)
    (hs : head.subject?.any (·.isTrigger name) = true) : c.hasTrigger name = true := by
  cases head with
  | trigger head => exact (Catalog.hasTrigger_congr hs).symm.trans (Bool.and_eq_true_iff.mp h).2
  | table | view | virtualTable | index => cases hs

theorem hasTable_of_start {table : String} (h : head.isThere c = true ∨ head.isFree c = true)
    (hs : head.subject? = some (.trigger name table)) : c.hasRelation table = true := by
  cases head with
  | trigger head =>
    cases hs
    obtain h | h := h
    · exact (Bool.and_eq_true_iff.mp h).1
    · exact (Bool.and_eq_true_iff.mp h).1
  | table | view | virtualTable | index => cases hs

end Parser.Heading

end Sql

namespace Migration

open Sql

def subjects (m : Migration) : List Subject := m.statements.filterMap subject?

theorem subjects_eq (m : Migration) :
    m.subjects = (m.statements.map String.toList).filterMap subjectOf? := by
  rw [List.filterMap_map]
  exact congrArg (m.statements.filterMap ·) (funext subject?_eq)

theorem subjects_graph : graph.subjects =
    [.relation "index_runs" false, .relation "documents" false, .relation "hover_results" false,
      .relation "package_information" false, .relation "monikers" false,
      .relation "symbols" false, .relation "moniker_symbols" false, .relation "result_sets" false,
      .relation "ranges" false, .relation "definitions_items" false,
      .relation "references_items" false] := by
  simp only [subjects_eq, statements, graphStatements, lines,
    List.map_cons, List.map_nil, String.toList_intercalate, String.toList_append]
  simp (disch := exact rfl) only [toList_eq_of_eq]
  decide +kernel

theorem subjects_symbolSearch : symbolSearch.subjects =
    [.relation "symbol_fts" true, .trigger "symbol_fts_insert" "symbols",
      .trigger "symbol_fts_delete" "symbols", .trigger "symbol_fts_update" "symbols"] := by
  simp only [subjects_eq, statements, symbolSearchStatements,
    lines, List.map_cons, List.map_nil, String.toList_intercalate]
  simp (disch := exact rfl) only [toList_eq_of_eq]
  decide +kernel

theorem subjects_occurrences : occurrences.subjects = [.relation "occurrences" false] := by
  simp only [subjects_eq, statements, occurrencesStatements,
    lines, List.map_cons, List.map_nil, String.toList_intercalate, String.toList_append]
  simp (disch := exact rfl) only [toList_eq_of_eq]
  decide +kernel

theorem subjects_isRelation (m : Migration) :
    m.subjects.any (·.isRelation "symbols") = decide (m = .graph) ∧
      m.subjects.any (·.isRelation Upgrade.indexName) = decide (m = .symbolSearch) ∧
      m.subjects.any (·.isRelation "occurrences") = decide (m = .occurrences) := by
  cases m <;>
    simp only [subjects_graph, subjects_symbolSearch, subjects_occurrences, List.any_cons,
      List.any_nil, Subject.isRelation, sameName_eq, Upgrade.indexName] <;>
    simp (disch := exact rfl) only [toList_eq_of_eq] <;> decide +kernel

theorem subjects_isTrigger (m : Migration) :
    m.subjects.any (·.isTrigger "symbol_fts_insert") = decide (m = .symbolSearch) := by
  cases m <;>
    simp only [subjects_graph, subjects_symbolSearch, subjects_occurrences, List.any_cons,
      List.any_nil, Subject.isTrigger, sameName_eq]
  case symbolSearch =>
    simp (disch := exact rfl) only [toList_eq_of_eq]
    decide +kernel
  all_goals rfl

end Migration

namespace Upgrade

open Sql

def ownTables : List String := counterName :: (shadowTables indexName).map (·.1)

/-- Whether a name is one of the tables that nobody asks for. -/
def isOwn (name : String) : Bool := ownTables.any (sameName · name)

theorem isOwn_congr {a b : String} (h : sameName a b = true) : isOwn a = isOwn b := by
  unfold isOwn sameName
  rw [sameName_iff.mp h]

theorem isOwn_of_mem {name : String} (h : name ∈ ownTables) : isOwn name = true :=
  List.any_eq_true.mpr ⟨name, h, sameName_iff.mpr rfl⟩

/-- Whether what creates a table and the rest of its statement say the same name. -/
def IsShadow (shadow : String × String) : Prop :=
  subject? ("CREATE TABLE '" ++ shadow.1 ++ "'" ++ shadow.2) = some (.relation shadow.1 false)

theorem isShadow_of_mem : ∀ shadow ∈ shadowTables indexName, IsShadow shadow := by
  simp only [IsShadow, shadowTables, indexName, partName, List.map_cons, List.map_nil,
    List.forall_mem_cons, subject?_eq, String.toList_append]
  simp (disch := exact rfl) only [toList_eq_of_eq]
  refine ⟨?_, ?_, ?_, ?_, nofun⟩
  all_goals decide +kernel

theorem not_isOwn : isOwn "symbols" = false ∧ isOwn indexName = false ∧
    isOwn "occurrences" = false := by
  simp only [isOwn, ownTables, counterName, shadowTables, indexName, partName, List.map_cons,
    List.map_nil, List.any_cons, List.any_nil, sameName_eq, String.toList_append]
  simp (disch := exact rfl) only [toList_eq_of_eq]
  decide +kernel

end Upgrade

end SymbolAtlas
