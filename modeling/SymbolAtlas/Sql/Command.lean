import SymbolAtlas.Sql.BoxTable
import SymbolAtlas.Sql.DocumentTable
import SymbolAtlas.Sql.Refill

/-!
Commands: texts that are inserted into the column of a relation that is named like it.
-/

namespace SymbolAtlas.Sql

namespace VirtualDef

/-- What keeps a virtual table that shows what is kept elsewhere from being used; none if it is no
such table. -/
def viewFault? (t : VirtualDef) : Option (Option String) :=
  let arguments := t.arguments
  match t.engine.toLower with
  | "json_each" | "json_tree" => some none
  | "dbstat" =>
    some ((arguments.head?.filter fun a => !(["main", "temp"].contains a.toLower)).map
      fun a => s!"no such database: {a}")
  | "fts4aux" =>
    some (if arguments.length = 1 then none else some "invalid arguments to fts4aux constructor")
  | "fts3tokenize" =>
    let name := DocumentTable.dequoted ((arguments.head?.getD "simple").toList)
    some (if ["simple", "porter", "unicode61"].contains name then none
      else some s!"unknown tokenizer: {name}")
  | "fts5vocab" =>
    let kind := DocumentTable.dequoted ((arguments[1]?).getD "").toList
    some (if arguments.length ≠ 2 then some "wrong number of vtable arguments"
      else if ["col", "row", "instance"].any (sameName kind) then none
      else some s!"fts5vocab: unknown table type: '{kind}'")
  | _ => none

/-- How a command ends early that is given to a virtual table.  To a full-text table it is to be
filled anew. -/
def commandOutcome? (t : VirtualDef) (c : Catalog) (contents : Contents) (name : String) :
    Option Outcome :=
  match t.engine.toLower with
  | "fts5" =>
    match FullText.ofArguments t.arguments with
    | .error fault => some (.refused fault)
    | .ok f => f.refillOutcome? c contents t.name
  | "fts3" | "fts4" =>
    match DocumentTable.ofArguments (t.engine.toList.getLast? = some '4') c t.arguments with
    | .error fault => some (.refused fault)
    | .ok d => d.refillOutcome? c contents t.name
  | "rtree" | "rtree_i32" =>
    match BoxTable.ofArguments t.arguments with
    | .error fault => some (.refused fault)
    | .ok b => (b.insertFault? c contents t.name name).map .refused
  | _ =>
    match t.viewFault? with
    | none => some (.refused s!"no such module: {t.engine}")
    | some fault => some (.refused (fault.getD s!"table {name} may not be modified"))

end VirtualDef

namespace Catalog

def commandOutcome? (c : Catalog) (contents : Contents) (name command : String) :
    Option Outcome :=
  let insertion : Insertion := ⟨[(name, .text command)], none⟩
  match c.relation? name with
  | none => some (.refused s!"no such table: {name}")
  | some (.table t) =>
    match t.insertFault? c name [name] with
    | some fault => some (.refused fault)
    | none => t.insertOutcome? c contents insertion
  | some (.virtualTable t) => t.commandOutcome? c contents name
  | some (.view v) => v.insertOutcome? c contents name insertion

end Catalog

end SymbolAtlas.Sql
