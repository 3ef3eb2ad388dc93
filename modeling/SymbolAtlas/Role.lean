/-!
What an occurrence does with its symbol, and which bucket of a result set a query reads.
-/

namespace SymbolAtlas

inductive Role where
  | definition
  | reference
  | implementation
  | type
deriving DecidableEq

namespace Role

def all : List Role := [definition, reference, implementation, type]

def name : Role → String
  | definition => "definition"
  | reference => "reference"
  | implementation => "implementation"
  | type => "type"

/-- The role with the given name; names are matched exactly. -/
def ofName? (text : String) : Option Role := all.find? fun r => r.name == text

def unknownMessage (text : String) : String := "unknown occurrence role: " ++ text

end Role

inductive BucketKind where
  | definitions
  | references
  | typeDefinition
  | implementation
deriving DecidableEq

namespace BucketKind

def all : List BucketKind := [definitions, references, typeDefinition, implementation]

/-- The request whose answer the bucket holds, which is also the label of the edge to it. -/
def edgeLabel : BucketKind → String
  | definitions => "textDocument/definition"
  | references => "textDocument/references"
  | typeDefinition => "textDocument/typeDefinition"
  | implementation => "textDocument/implementation"

def name : BucketKind → String
  | definitions => "definitions"
  | references => "references"
  | typeDefinition => "type_definition"
  | implementation => "implementation"

def ofName? (text : String) : Option BucketKind := all.find? fun k => k.name == text

end BucketKind

end SymbolAtlas
