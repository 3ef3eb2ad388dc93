/-!
Tokens of SQL text.  Blanks and comments stand between tokens and mean nothing.
-/

namespace SymbolAtlas.Sql

/-- What a token is.  Quoted names are apart from plain ones, because a quoted name that means
nothing is a text. -/
inductive TokenKind where
  | keyword
  | name
  | quotedName
  | text
  | integer
  | real
  | blob
  | parameter
  | mark
  | illegal
  | finish
deriving DecidableEq

/-- A token.  Its word is a keyword in capitals, a mark, the name without its quotes or the text
that is meant; the text of the token is how it is written. -/
structure Token where
  kind : TokenKind
  text : String
  word : String
  start : Nat
  stop : Nat

namespace Token

def isKeyword (t : Token) (word : String) : Bool := t.kind = .keyword && t.word = word

def isMark (t : Token) (mark : String) : Bool := t.kind = .mark && t.word = mark

end Token

def softKeywords : List String :=
  ["ABORT", "ACTION", "AFTER", "ALWAYS", "ANALYZE", "ASC", "ATTACH", "BEFORE", "BEGIN", "BY",
   "CASCADE", "CAST", "COLUMN", "CONFLICT", "CURRENT", "CURRENT_DATE", "CURRENT_TIME",
   "CURRENT_TIMESTAMP", "DATABASE", "DEFERRED", "DESC", "DETACH", "DO", "EACH", "END", "EXCLUDE",
   "EXCLUSIVE", "EXPLAIN", "FAIL", "FIRST", "FOLLOWING", "FOR", "GENERATED", "GLOB", "GROUPS",
   "IF", "IGNORE", "IMMEDIATE", "INITIALLY", "INSTEAD", "KEY", "LAST", "LIKE", "MATCH",
   "MATERIALIZED", "NO", "NULLS", "OF", "OFFSET", "OTHERS", "PARTITION", "PLAN", "PRAGMA",
   "PRECEDING", "QUERY", "RAISE", "RANGE", "RECURSIVE", "REGEXP", "REINDEX", "RELEASE", "RENAME",
   "REPLACE", "RESTRICT", "ROLLBACK", "ROW", "ROWS", "SAVEPOINT", "TEMP", "TEMPORARY", "TIES",
   "TRIGGER", "UNBOUNDED", "VACUUM", "VIEW", "VIRTUAL", "WITH", "WITHOUT"]

def joinKeywords : List String :=
  ["CROSS", "FULL", "INNER", "LEFT", "NATURAL", "OUTER", "RIGHT"]

/-- Keywords that are names unless what stands around them makes them keywords. -/
def windowKeywords : List String := ["FILTER", "OVER", "WINDOW"]

def hardKeywords : List String :=
  ["ADD", "ALL", "ALTER", "AND", "AS", "AUTOINCREMENT", "BETWEEN", "CASE", "CHECK", "COLLATE",
   "COMMIT", "CONSTRAINT", "CREATE", "DEFAULT", "DEFERRABLE", "DELETE", "DISTINCT", "DROP", "ELSE",
   "ESCAPE", "EXCEPT", "EXISTS", "FOREIGN", "FROM", "GROUP", "HAVING", "IN", "INDEX", "INDEXED",
   "INSERT", "INTERSECT", "INTO", "IS", "ISNULL", "JOIN", "LIMIT", "NOT", "NOTHING", "NOTNULL",
   "NULL", "ON", "OR", "ORDER", "PRIMARY", "REFERENCES", "RETURNING", "SELECT", "SET", "TABLE",
   "THEN", "TO", "TRANSACTION", "UNION", "UNIQUE", "UPDATE", "USING", "VALUES", "WHEN", "WHERE"]

def isKeyword (word : String) : Bool :=
  softKeywords.contains word || joinKeywords.contains word || windowKeywords.contains word
    || hardKeywords.contains word

def isSpace (c : Char) : Bool :=
  c = ' ' || c = '\t' || c = '\n' || c = '\r' || c = '\x0c' || c = '\ufeff'

def isNameChar (c : Char) : Bool := c.isAlphanum || c = '_' || c = '$' || 128 ≤ c.toNat

def isHexDigit (c : Char) : Bool := (c.toLower.isDigit || ('a' ≤ c.toLower && c.toLower ≤ 'f'))

def blankLength : List Char → Nat
  | '-' :: '-' :: r => 2 + (r.takeWhile (· ≠ '\n')).length
  | '/' :: '*' :: c :: r => 2 + closing (c :: r)
  | c :: _ => if isSpace c then 1 else 0
  | [] => 0
where
  closing : List Char → Nat
    | '*' :: '/' :: _ => 2
    | _ :: r => 1 + closing r
    | [] => 0

/-- The length of a quoted text after its first quote, and whether it is closed.  A doubled quote
does not close it. -/
def quotedLength (quote : Char) : List Char → Nat × Bool
  | [] => (0, false)
  | c :: d :: r =>
    if c = quote then
      if d = quote then
        let (n, closed) := quotedLength quote r
        (n + 2, closed)
      else (1, true)
    else
      let (n, closed) := quotedLength quote (d :: r)
      (n + 1, closed)
  | [c] => (1, c = quote)

def unquoted (quote : Char) : List Char → List Char
  | [] => []
  | c :: r =>
    if c = quote then
      match r with
      | d :: r' => if d = quote then quote :: unquoted quote r' else []
      | [] => []
    else c :: unquoted quote r

/-- Whether underscores stand only between digits. -/
def separates (digit : Char → Bool) : List Char → Bool
  | '_' :: _ => false
  | c :: '_' :: d :: r => digit c && digit d && separates digit (d :: r)
  | [_, '_'] => false
  | _ :: r => separates digit r
  | [] => true

def numberLength (cs : List Char) : Nat × TokenKind :=
  let part := fun (digit : Char → Bool) (cs : List Char) =>
    cs.takeWhile fun c => digit c || c = '_'
  let finish := fun (digit : Char → Bool) (kind : TokenKind) (used : List Char) =>
    let rest := (cs.drop used.length).takeWhile isNameChar
    let sound := rest.isEmpty && separates digit (used.filter fun c => c ≠ '.')
    (used.length + rest.length, if sound then kind else .illegal)
  match cs with
  | '0' :: x :: d :: r =>
    if x.toLower = 'x' && isHexDigit d then
      finish isHexDigit .integer ('0' :: x :: part isHexDigit (d :: r))
    else decimal part finish
  | _ => decimal part finish
where
  decimal (part : (Char → Bool) → List Char → List Char)
      (finish : (Char → Bool) → TokenKind → List Char → Nat × TokenKind) : Nat × TokenKind :=
    let whole := part Char.isDigit cs
    let rest := cs.drop whole.length
    let (point, rest) := match rest with
      | '.' :: r => ('.' :: part Char.isDigit r, r.drop (part Char.isDigit r).length)
      | _ => ([], rest)
    let exponent := match rest with
      | e :: c :: r =>
        if e.toLower ≠ 'e' then []
        else if c.isDigit then e :: part Char.isDigit (c :: r)
        else match r with
          | d :: _ =>
            if (c = '+' || c = '-') && d.isDigit then e :: c :: part Char.isDigit r else []
          | [] => []
      | _ => []
    let used := whole ++ point ++ exponent
    finish (fun c => c.isDigit || c = '+' || c = '-' || c.toLower = 'e')
      (if point.isEmpty && exponent.isEmpty then .integer else .real) used

/-- The length of a parameter's name after its first character, and whether it is one. -/
def parameterLength : (letters : Nat) → List Char → Nat × Bool
  | letters, ':' :: ':' :: r =>
    let (n, sound) := parameterLength letters r
    (n + 2, sound)
  | letters, c :: r =>
    if isNameChar c then
      let (n, sound) := parameterLength (letters + 1) r
      (n + 1, sound)
    else if c = '(' && letters ≠ 0 then
      let inside := r.takeWhile fun c => c ≠ ')' && !isSpace c
      match r.drop inside.length with
      | ')' :: _ => (inside.length + 2, true)
      | _ => (inside.length + 1, false)
    else (0, letters ≠ 0)
  | letters, [] => (0, letters ≠ 0)

def longMarks : List (String × String) :=
  [("->>", "->"), ("->", "->"), ("==", "="), ("<=", "<="), ("<>", "<>"), ("<<", "<<"),
   (">=", ">="), (">>", ">>"), ("!=", "<>"), ("||", "||")]

def shortMarks : List Char :=
  ['(', ')', ';', '+', '-', '*', '/', '%', '=', '<', '>', '|', ',', '&', '~', '.']

def lexeme (cs : List Char) : TokenKind × Nat × String :=
  let named := fun (kind : TokenKind) (n : Nat) => (kind, n, String.ofList (cs.take n))
  match longMarks.find? fun m => m.1.toList.isPrefixOf cs with
  | some (written, mark) => (.mark, written.length, mark)
  | none =>
    match cs with
    | [] => (.finish, 0, "")
    | c :: r =>
      if c = '\x27' || c = '\x22' || c = '\x60' then
        let (n, closed) := quotedLength c r
        let kind := if !closed then .illegal else if c = '\x27' then .text else .quotedName
        (kind, n + 1, String.ofList (unquoted c r))
      else if c = '[' then
        let inside := r.takeWhile (· ≠ ']')
        if inside.length = r.length then named .illegal cs.length
        else (.quotedName, inside.length + 2, String.ofList inside)
      else if c.isDigit || (c = '.' && (r.head?.map Char.isDigit).getD false) then
        let (n, kind) := numberLength cs
        named kind n
      else if c = '?' then named .parameter (1 + (r.takeWhile Char.isDigit).length)
      else if c = '$' || c = '@' || c = '#' || c = ':' then
        let (n, sound) := parameterLength 0 r
        named (if sound then .parameter else .illegal) (n + 1)
      else if c.toLower = 'x' && r.head? = some '\x27' then
        let digits := (r.drop 1).takeWhile isHexDigit
        match (r.drop 1).drop digits.length with
        | '\x27' :: _ =>
          named (if digits.length % 2 = 0 then .blob else .illegal) (digits.length + 3)
        | rest =>
          let more := rest.takeWhile (· ≠ '\x27')
          named .illegal
            (digits.length + 2 + more.length + if more.length = rest.length then 0 else 1)
      else if isNameChar c then
        let name := cs.takeWhile isNameChar
        let word := (String.ofList name).map Char.toUpper
        if isKeyword word then (.keyword, name.length, word)
        else named .name name.length
      else if shortMarks.contains c then (.mark, 1, String.singleton c)
      else named .illegal 1

/-- All tokens of the text from a place on, up to the first that is illegal or the end.  The end
of the text also ends its last statement. -/
def readTokens : (fuel : Nat) → (place : Nat) → List Char → List Token
  | 0, _, _ => []
  | fuel + 1, place, cs =>
    match blankLength cs with
    | n + 1 => readTokens fuel (place + n + 1) (cs.drop (n + 1))
    | 0 =>
      let (kind, n, word) := lexeme cs
      let token : Token := ⟨kind, String.ofList (cs.take n), word, place, place + n⟩
      if kind = .finish then [{ token with kind := .mark, word := ";" }, token]
      else if kind = .illegal then [token]
      else token :: readTokens fuel (place + n) (cs.drop n)

namespace Token

def isName (t : Token) : Bool :=
  t.kind = .name || t.kind = .quotedName || (t.kind = .keyword && softKeywords.contains t.word)

/-- A name in a place where joins cannot stand. -/
def isFreeName (t : Token) : Bool :=
  t.isName || t.isKeyword "INDEXED" || (t.kind = .keyword && joinKeywords.contains t.word)

def isNameOrText (t : Token) : Bool := t.isName || t.kind = .text

def isLabel (t : Token) : Bool := t.isFreeName || t.kind = .text

/-- The name that is meant. -/
def label (t : Token) : String := if t.kind = .keyword then t.text else t.word

def asName (t : Token) : Token := { t with kind := .name, word := t.text }

end Token

/-- Settles which keywords of windows are names. -/
def settleWindows (previous : Option Token) : List Token → List Token
  | [] => []
  | t :: rest =>
    let follows := (previous.map (·.isMark ")")).getD false
    let isSome := fun (p : Token → Bool) (t : Option Token) => (t.map p).getD false
    let standsForName := fun (t : Token) =>
      t.isNameOrText || t.isKeyword "WINDOW" || t.isKeyword "OVER"
        || (t.kind = .keyword && joinKeywords.contains t.word)
    let keeps :=
      if t.isKeyword "WINDOW" then
        isSome standsForName rest.head? && isSome (·.isKeyword "AS") (rest.drop 1).head?
      else if t.isKeyword "OVER" then
        follows && isSome (fun t => t.isMark "(" || standsForName t) rest.head?
      else if t.isKeyword "FILTER" then follows && isSome (·.isMark "(") rest.head?
      else true
    (if keeps then t else t.asName) :: settleWindows (some t) rest

def tokens (text : String) : List Token :=
  settleWindows none (readTokens (text.length + 1) 0 text.toList)

end SymbolAtlas.Sql
