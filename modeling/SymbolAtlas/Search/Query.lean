import SymbolAtlas.Text.Alphanumeric

/-!
Search queries.  A query is cut into its maximal stretches of alphanumeric characters and
underscores, and each becomes a quoted term with a star.
-/

namespace SymbolAtlas

/-- The maximal stretches of characters that satisfy `keep`, in order. -/
def stretches (keep : Char → Bool) : List Char → List (List Char)
  | [] => []
  | c :: rest =>
    if keep c then
      match rest, stretches keep rest with
      | d :: _, r :: rs => if keep d then (c :: r) :: rs else [c] :: r :: rs
      | _, rs => [c] :: rs
    else stretches keep rest

def isTermChar (c : Char) : Bool := isAlphanumeric c || c == '_'

def queryTerms (input : String) : List String :=
  (stretches isTermChar input.toList).map String.ofList

def termText (term : String) : String := "\x22" ++ term ++ "\x22*"

/-- The expression for a query, or none if the query has no term. -/
def queryText? (input : String) : Option String :=
  match queryTerms input with
  | [] => none
  | terms => some (" ".intercalate (terms.map termText))

end SymbolAtlas
