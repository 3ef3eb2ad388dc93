import SymbolAtlas.Json.Basic
import SymbolAtlas.Position
import SymbolAtlas.Role

/-!
The records of a dump: vertices that declare things under stream-local ids and edges that
connect them.  Labels that the store has no use for are kept as `other`.
-/

namespace SymbolAtlas

inductive VertexLabel where
  | metaData
  | document
  | range
  | resultSet
  | moniker
  | hoverResult
  | packageInformation
  | bucket (kind : BucketKind)
deriving DecidableEq

namespace VertexLabel

def all : List VertexLabel :=
  [metaData, document, range, resultSet, moniker, hoverResult, packageInformation,
    bucket .definitions, bucket .references, bucket .typeDefinition, bucket .implementation]

def name : VertexLabel → String
  | metaData => "metaData"
  | document => "document"
  | range => "range"
  | resultSet => "resultSet"
  | moniker => "moniker"
  | hoverResult => "hoverResult"
  | packageInformation => "packageInformation"
  | bucket .definitions => "definitionResult"
  | bucket .references => "referenceResult"
  | bucket .typeDefinition => "typeDefinitionResult"
  | bucket .implementation => "implementationResult"

end VertexLabel

inductive EdgeLabel where
  | contains
  | next
  | moniker
  | packageInformation
  | bucket (kind : BucketKind)
  | hover
  | item
deriving DecidableEq

namespace EdgeLabel

def all : List EdgeLabel :=
  [contains, next, moniker, packageInformation, bucket .definitions, bucket .references,
    bucket .typeDefinition, bucket .implementation, hover, item]

def name : EdgeLabel → String
  | contains => "contains"
  | next => "next"
  | moniker => "moniker"
  | packageInformation => "packageInformation"
  | bucket kind => kind.edgeLabel
  | hover => "textDocument/hover"
  | item => "item"

end EdgeLabel

inductive Vertex where
  | metaData (version projectRoot : Option String)
  | document (id : Int) (uri : String) (languageId : Option String)
  | range (id : Int) (span : Span)
  | resultSet (id : Int)
  | moniker (id : Int) (scheme identifier : String) (kind : Option String)
      (packageInformationId : Option Int)
  | hoverResult (id : Int) (result : Json)
  | packageInformation (id : Int) (name : String) (version manager : Option String)
  | bucket (kind : BucketKind) (id : Int)
  | other

inductive Edge where
  | contains (outV : Int) (inVs : List Int)
  | next (outV inV : Int)
  | moniker (outV inV : Int)
  | packageInformation (outV inV : Int)
  | bucket (kind : BucketKind) (outV inV : Int)
  | hover (outV inV : Int)
  | item (outV : Int) (inVs : Option (List Int)) (inV : Option Int) (property : Option String)
  | other
deriving DecidableEq

inductive Element where
  | vertex (v : Vertex)
  | edge (e : Edge)

namespace Edge

/-- The targets of an item edge: the list if there is one, else the single target. -/
def itemTargets (inVs : Option (List Int)) (inV : Option Int) : List Int :=
  match inVs, inV with
  | some many, _ => many
  | none, some one => [one]
  | none, none => []

def isDefinitions (property : Option String) : Bool := property == some "definitions"

/-- The kind of bucket that the edge leads to. -/
def bucketKind? : Edge → Option BucketKind
  | bucket kind _ _ => some kind
  | _ => none

end Edge

namespace Element

def describe : Element → String
  | vertex v =>
    match v with
    | .metaData _ _ => "vertex metaData"
    | .document _ _ _ => "vertex document"
    | .range _ _ => "vertex range"
    | .resultSet _ => "vertex resultSet"
    | .moniker _ _ _ _ _ => "vertex moniker"
    | .hoverResult _ _ => "vertex hoverResult"
    | .packageInformation _ _ _ _ => "vertex packageInformation"
    | .bucket _ _ => "vertex result bucket"
    | .other => "vertex"
  | edge e =>
    match e with
    | .contains _ _ => "edge contains"
    | .next _ _ => "edge next"
    | .moniker _ _ => "edge moniker"
    | .packageInformation _ _ => "edge packageInformation"
    | .bucket kind _ _ => "edge " ++ kind.edgeLabel
    | .hover _ _ => "edge textDocument/hover"
    | .item _ _ _ _ => "edge item"
    | .other => "edge"

end Element

end SymbolAtlas
