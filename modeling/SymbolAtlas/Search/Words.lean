import SymbolAtlas.Text.WordForm

/-!
The words of the search index, and when a term matches a text.
-/

namespace SymbolAtlas

abbrev Word := List Nat

/-- Cuts a text into words.  `current` holds the word being read, backwards; an accent goes on
with a word but does not start one. -/
def wordsFrom (current : Option Word) : List Char → List Word
  | [] => match current with
    | some w => [w.reverse]
    | none => []
  | c :: rest =>
    match WordForm.ofChar c, current with
    | .letter n, some w => wordsFrom (some (n :: w)) rest
    | .letter n, none => wordsFrom (some [n]) rest
    | .accent, current => wordsFrom current rest
    | .separator, some w => w.reverse :: wordsFrom none rest
    | .separator, none => wordsFrom none rest

def words (text : String) : List Word := wordsFrom none text.toList

/-- Whether a phrase starts a list of words: all its words but the last are equal to theirs, and
the last is the beginning of its own. -/
def startsWithPhrase : List Word → List Word → Bool
  | [], _ => true
  | [w], v :: _ => w.isPrefixOf v
  | w :: w' :: rest, v :: vs => w == v && startsWithPhrase (w' :: rest) vs
  | _ :: _, [] => false

def hasPhrase (phrase : List Word) : List Word → Bool
  | [] => startsWithPhrase phrase []
  | v :: vs => startsWithPhrase phrase (v :: vs) || hasPhrase phrase vs

def phrases (terms : List String) : List (List Word) :=
  (terms.map words).filter fun p => !p.isEmpty

/-- Whether every phrase is in one of the texts; without phrases nothing matches. -/
def matchesAny (phrases : List (List Word)) (texts : List String) : Bool :=
  !phrases.isEmpty && phrases.all fun p => texts.any fun t => hasPhrase p (words t)

end SymbolAtlas
