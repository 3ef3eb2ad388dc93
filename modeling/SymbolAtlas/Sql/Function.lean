/-!
The functions that expressions may call.  Others may be added while a database is in use, so a
name that is not listed is no fault.
-/

namespace SymbolAtlas.Sql

inductive FunctionKind where
  /-- Its value is settled by its arguments. -/
  | plain
  /-- Its value may change from call to call. -/
  | varying
  /-- It takes the values of many rows together. -/
  | aggregate
  /-- It looks at the rows around a row. -/
  | window
deriving DecidableEq

structure FunctionDef where
  name : String
  kind : FunctionKind := .plain
  least : Nat
  most : Option Nat := some least

namespace FunctionDef

def takes (f : FunctionDef) (count : Nat) : Bool :=
  f.least ≤ count && (f.most.map (decide <| count ≤ ·)).getD true

end FunctionDef

def functionsOf (kind : FunctionKind) (least : Nat) (most : Option Nat) (names : List String) :
    List FunctionDef :=
  names.map fun n => ⟨n, kind, least, most⟩

def functions : List FunctionDef :=
  functionsOf .plain 1 (some 1)
    ["abs", "hex", "json", "json_error_position", "json_quote", "jsonb", "length", "likely",
     "lower", "octet_length", "quote", "soundex", "typeof", "unicode", "unlikely", "upper",
     "zeroblob"]
  ++ functionsOf .plain 2 (some 2)
    ["->", "->>", "glob", "ifnull", "instr", "json_patch", "jsonb_patch", "likelihood", "nullif",
     "timediff"]
  ++ functionsOf .plain 3 (some 3) ["iif", "replace"]
  ++ functionsOf .plain 1 (some 2)
    ["json_array_length", "json_pretty", "json_type", "json_valid", "ltrim", "round", "rtrim",
     "trim", "unhex"]
  ++ functionsOf .plain 2 (some 3) ["like", "substr", "substring"]
  ++ functionsOf .plain 0 none
    ["char", "date", "datetime", "format", "json_array", "json_extract", "json_insert",
     "json_object", "json_remove", "json_replace", "json_set", "jsonb_array", "jsonb_extract",
     "jsonb_insert", "jsonb_object", "jsonb_remove", "jsonb_replace", "jsonb_set", "julianday",
     "printf", "strftime", "time", "unixepoch"]
  ++ functionsOf .plain 1 none ["concat"]
  ++ functionsOf .plain 2 none ["coalesce", "concat_ws", "max", "min"]
  ++ functionsOf .varying 0 (some 0)
    ["changes", "current_date", "current_time", "current_timestamp", "last_insert_rowid", "random",
     "total_changes"]
  ++ functionsOf .varying 1 (some 1) ["randomblob"]
  ++ functionsOf .varying 2 (some 2) ["match"]
  ++ functionsOf .varying 0 (some 0) ["sqlite_source_id", "sqlite_version"]
  ++ functionsOf .aggregate 1 (some 1)
    ["avg", "json_group_array", "jsonb_group_array", "max", "min", "sum", "total"]
  ++ functionsOf .aggregate 0 (some 1) ["count"]
  ++ functionsOf .aggregate 1 (some 2) ["group_concat"]
  ++ functionsOf .aggregate 2 (some 2) ["json_group_object", "jsonb_group_object", "string_agg"]
  ++ functionsOf .window 0 (some 0)
    ["cume_dist", "dense_rank", "percent_rank", "rank", "row_number"]
  ++ functionsOf .window 1 (some 1) ["first_value", "last_value", "ntile"]
  ++ functionsOf .window 2 (some 2) ["nth_value"]
  ++ functionsOf .window 1 (some 3) ["lag", "lead"]

/-- What a call of a function of some arguments stands for. -/
inductive Callee where
  | unknown
  | wrongCount (kind : FunctionKind)
  | found (kind : FunctionKind)

def Callee.looksAround : Callee → Bool
  | unknown => true
  | wrongCount kind | found kind => kind = .aggregate || kind = .window

def callee (name : String) (count : Nat) : Callee :=
  let named := functions.filter fun f => f.name = name.toLower
  match named.find? fun f => f.takes count with
  | some f => .found f.kind
  | none => (named.head?.map fun f => .wrongCount f.kind).getD .unknown

end SymbolAtlas.Sql
