/-!
Configuration text in TOML 1.0, as written: the lines of a document and the values on them.
-/

namespace SymbolAtlas.Toml

abbrev Path := List String

/-- Values that hold no other values.  The number of a float and the parts of a date are of no
use here. -/
inductive Scalar where
  | text (value : String)
  | int (value : Int)
  | float
  | bool (value : Bool)
  | datetime

/-- A value as written.  The members of an inline table may have dotted keys. -/
inductive Value where
  | scalar (value : Scalar)
  | array (items : List Value)
  | inline (members : List (Path × Value))

inductive Entry where
  | header (path : Path)
  | arrayHeader (path : Path)
  | assign (path : Path) (value : Value)

end SymbolAtlas.Toml
