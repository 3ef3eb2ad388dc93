import SymbolAtlas.Json.Reader
import SymbolAtlas.Record.Basic

/-!
Decoding a record from JSON: an object with a `type`, a `label` and the fields of that label among
any other members, or an array of the same things in a fixed order.
-/

namespace SymbolAtlas

namespace Json

def int64? : Json → Option Int
  | int i => if -(int64Bound : Int) ≤ i ∧ i < int64Bound then some i else none
  | _ => none

def coordinate? : Json → Option Nat
  | int i => if 0 ≤ i ∧ i < word32Bound then some i.toNat else none
  | _ => none

def int64List? : Json → Option (List Int)
  | arr items => items.mapM int64?
  | _ => none

/-- A field that may be absent or null. -/
def optional? {α : Type} (decode : Json → Option α) : Option Json → Option (Option α)
  | none => some none
  | some null => some none
  | some v => (decode v).map some

def required? {α : Type} (decode : Json → Option α) (field : Option Json) : Option α :=
  field.bind decode

def field? (members : List (String × Json)) (name : String) : Option (Option Json) :=
  match members.filter fun m => m.1 == name with
  | [] => some none
  | [m] => some (some m.2)
  | _ => none

def fields? (names : List String) (members : List (String × Json)) : Option (List (Option Json)) :=
  names.mapM (field? members)

/-- The fields of an array by place; if `optionalLast` holds, the last one may be left out. -/
def places? (names : List String) (optionalLast : Bool) (items : List Json) :
    Option (List (Option Json)) :=
  if items.length = names.length then some (items.map some)
  else if optionalLast ∧ items.length + 1 = names.length then some (items.map some ++ [none])
  else none

def position? (v : Json) : Option Position := do
  let names := ["line", "character"]
  let fields ← match v with
    | obj members => fields? names members
    | arr items => places? names false items
    | _ => none
  match fields with
  | [line, character] =>
    return ⟨← required? coordinate? line, ← required? coordinate? character⟩
  | _ => none

end Json

/-- A label by name or by number.  Some none is a label without meaning here; none is no label
at all. -/
def labelOf? {α : Type} (labels : List α) (name : α → String) : Json → Option (Option α)
  | .str s => some (labels.find? fun l => name l == s)
  | .int i => if 0 ≤ i then some labels[i.toNat]? else none
  | _ => none

namespace VertexLabel

def fieldNames : VertexLabel → List String
  | metaData => ["version", "projectRoot"]
  | document => ["id", "uri", "languageId"]
  | range => ["id", "start", "end"]
  | resultSet => ["id"]
  | moniker => ["id", "scheme", "identifier", "kind", "packageInformationId"]
  | hoverResult => ["id", "result"]
  | packageInformation => ["id", "name", "version", "manager"]
  | bucket _ => ["id"]

/-- Whether the last field has a default also in the array form. -/
def optionalLast (label : VertexLabel) : Bool := label == hoverResult

def decode? (label : VertexLabel) (fields : List (Option Json)) : Option Vertex := do
  match label, fields with
  | metaData, [version, projectRoot] =>
    return .metaData (← Json.optional? Json.str? version) (← Json.optional? Json.str? projectRoot)
  | document, [id, uri, languageId] =>
    return .document (← Json.required? Json.int64? id) (← Json.required? Json.str? uri)
      (← Json.optional? Json.str? languageId)
  | range, [id, start, stop] =>
    return .range (← Json.required? Json.int64? id)
      ⟨← Json.required? Json.position? start, ← Json.required? Json.position? stop⟩
  | resultSet, [id] => return .resultSet (← Json.required? Json.int64? id)
  | moniker, [id, scheme, identifier, kind, package] =>
    return .moniker (← Json.required? Json.int64? id) (← Json.required? Json.str? scheme)
      (← Json.required? Json.str? identifier) (← Json.optional? Json.str? kind)
      (← Json.optional? Json.int64? package)
  | hoverResult, [id, result] =>
    return .hoverResult (← Json.required? Json.int64? id) (result.getD .null)
  | packageInformation, [id, name, version, manager] =>
    return .packageInformation (← Json.required? Json.int64? id) (← Json.required? Json.str? name)
      (← Json.optional? Json.str? version) (← Json.optional? Json.str? manager)
  | bucket kind, [id] => return .bucket kind (← Json.required? Json.int64? id)
  | _, _ => none

end VertexLabel

namespace EdgeLabel

def fieldNames : EdgeLabel → List String
  | contains => ["outV", "inVs"]
  | item => ["outV", "inVs", "inV", "property"]
  | _ => ["outV", "inV"]

def optionalLast (label : EdgeLabel) : Bool := label == contains

def decode? (label : EdgeLabel) (fields : List (Option Json)) : Option Edge := do
  match label, fields with
  | contains, [outV, inVs] =>
    let targets ← match inVs with
      | none => some []
      | some v => Json.int64List? v
    return .contains (← Json.required? Json.int64? outV) targets
  | item, [outV, inVs, inV, property] =>
    return .item (← Json.required? Json.int64? outV) (← Json.optional? Json.int64List? inVs)
      (← Json.optional? Json.int64? inV) (← Json.optional? Json.str? property)
  | label, [outV, inV] =>
    let source ← Json.required? Json.int64? outV
    let target ← Json.required? Json.int64? inV
    match label with
    | next => return .next source target
    | moniker => return .moniker source target
    | packageInformation => return .packageInformation source target
    | bucket kind => return .bucket kind source target
    | hover => return .hover source target
    | _ => none
  | _, _ => none

end EdgeLabel

inductive RecordType where
  | vertex
  | edge

def RecordType.ofJson? : Json → Option RecordType
  | .str s => if s = "vertex" then some vertex else if s = "edge" then some edge else none
  | _ => none

namespace Element

/-- Decodes the fields of a record, given how to find them by name.  An unknown label has no
fields, and `stray` says whether anything stands where it must not. -/
def decode? (type : RecordType) (label : Json) (stray : Bool)
    (fields : List String → Bool → Option (List (Option Json))) : Option Element :=
  match type with
  | .vertex => do
    match ← labelOf? VertexLabel.all VertexLabel.name label with
    | none => if stray then none else some (vertex .other)
    | some l => (l.decode? (← fields l.fieldNames l.optionalLast)).map vertex
  | .edge => do
    match ← labelOf? EdgeLabel.all EdgeLabel.name label with
    | none => if stray then none else some (edge .other)
    | some l => (l.decode? (← fields l.fieldNames l.optionalLast)).map edge

def ofJson? : Json → Option Element
  | .obj members => do
    let type ← RecordType.ofJson? (← ← Json.field? members "type")
    let label ← ← Json.field? members "label"
    decode? type label false fun names _ => Json.fields? names members
  | .arr (type :: label :: items) => do
    let type ← RecordType.ofJson? type
    decode? type label (!items.isEmpty) fun names optionalLast =>
      Json.places? names optionalLast items
  | _ => none

/-- The record on one line of a dump; none if the line is malformed. -/
def ofLine? (line : List UInt8) : Option Element := (Json.ofBytes? line).bind ofJson?

end Element

end SymbolAtlas
