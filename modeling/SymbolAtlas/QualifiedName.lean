/-!
The display name of a symbol, taken from its identifier.
-/

namespace SymbolAtlas

def hasPathSeparator : List Char → Bool
  | ':' :: ':' :: _ => true
  | _ :: rest => hasPathSeparator rest
  | [] => false

def afterLastColon? : List Char → Option (List Char)
  | [] => none
  | c :: rest =>
    match afterLastColon? rest with
    | some tail => some tail
    | none => if c = ':' then some rest else none

def qualifiedChars (identifier : List Char) : List Char :=
  if hasPathSeparator identifier then identifier
  else
    match afterLastColon? identifier with
    | some (c :: tail) => c :: tail
    | _ => identifier

/-- Paths with `::` are kept whole.  Otherwise the text after the last colon is used, unless
that is empty. -/
def qualifiedName (identifier : String) : String := String.ofList (qualifiedChars identifier.toList)

end SymbolAtlas
