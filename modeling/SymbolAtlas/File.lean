/-!
Files as the program sees them: what is found at a path, and paths inside directories.
-/

namespace SymbolAtlas

inductive FileState where
  | absent
  | directory
  | file (content : List UInt8)

namespace FileState

/-- The text of a file; none if it cannot be read as text. -/
def text? : FileState → Option String
  | file content => String.fromUTF8? ⟨content.toArray⟩
  | _ => none

end FileState

def joinPath (directory name : String) : String :=
  if directory.isEmpty || directory.endsWith "/" then directory ++ name
  else directory ++ "/" ++ name

end SymbolAtlas
