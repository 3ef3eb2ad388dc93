import SymbolAtlas.Sql.Definition

/-!
Reading expressions and queries.  What can be read but makes no sense is complained about once the
next token is seen to go on with it.
-/

namespace SymbolAtlas.Sql

structure Complaint where
  message : String
  place : Option Nat := none

/-- Where reading stands: the tokens that are left, what does not make sense so far, whether
parameters were met, from which other databases tables were asked for, which tables were asked for
at all and which queries have names of their own. -/
structure Reading where
  tokens : List Token
  pending : Option Complaint := none
  hasParameter : Bool := false
  databases : List String := []
  sources : List String := []
  locals : List String := []

abbrev Parser := StateT Reading (Except Complaint)

namespace Parser

def ending : Token := ⟨.finish, "", "", 0, 0⟩

def peekAt (n : Nat) : Parser Token := return ((← get).tokens.drop n).headD ending

def peek : Parser Token := peekAt 0

/-- Goes on to the next token, unless something is pending. -/
def advance : Parser Token := do
  match (← get).pending with
  | some complaint => throw complaint
  | none =>
    let t ← peek
    modify fun r => { r with tokens := r.tokens.drop 1 }
    return t

/-- Notes that what was read makes no sense. -/
def object (message : String) (place : Option Nat) : Parser Unit :=
  modify fun r => { r with pending := some ⟨message, place⟩ }

def isObjected : Parser Bool := return (← get).pending.isSome

/-- Complains about the next token. -/
def reject {α : Type} : Parser α := do
  let t ← peek
  if t.text = "" then throw ⟨"incomplete input", none⟩
  else if t.kind = .illegal then throw ⟨s!"unrecognized token: \"{t.text}\"", none⟩
  else throw ⟨s!"near \"{t.text}\": syntax error", none⟩

def atKeyword (word : String) : Parser Bool := return (← peek).isKeyword word

def atMark (mark : String) : Parser Bool := return (← peek).isMark mark

/-- Goes on if the next token is a certain one. -/
def takeIf (p : Token → Bool) : Parser Bool := do
  if p (← peek) then
    let _ ← advance
    return true
  else return false

def expect (p : Token → Bool) : Parser Unit := do
  if !(← takeIf p) then reject

def takeKeyword (word : String) : Parser Bool := takeIf (·.isKeyword word)

def takeKeywordIf (expected : Bool) (word : String) : Parser Bool :=
  if expected then takeKeyword word else pure false

def takeMark (mark : String) : Parser Bool := takeIf (·.isMark mark)

def keyword (word : String) : Parser Unit := expect (·.isKeyword word)

def mark (mark : String) : Parser Unit := expect (·.isMark mark)

def tokenIf (p : Token → Bool) : Parser Token := do
  if p (← peek) then advance else reject

def label : Parser String := return (← tokenIf Token.isLabel).label

def takeOneOf : List String → Parser Bool
  | [] => return false
  | word :: words => do
    if ← takeKeyword word then return true else takeOneOf words

def oneOf (words : List String) : Parser Unit := do
  if !(← takeOneOf words) then reject

def keywords : List String → Parser Unit
  | [] => return ()
  | word :: words => do
    keyword word
    keywords words

def separated {α : Type} (item : Parser α) : (fuel : Nat) → Parser (List α)
  | 0 => reject
  | fuel + 1 => do
    let first ← item
    if ← takeMark "," then return first :: (← separated item fuel) else return [first]

def remaining : Parser Nat := return (← get).tokens.length

def list {α : Type} (item : Parser α) : Parser (List α) := do separated item (← remaining)

def inParens {α : Type} (item : Parser α) : Parser α := do
  mark "("
  let a ← item
  mark ")"
  return a

def signedNumber : Parser Unit := do
  if !(← takeMark "+") then
    let _ ← takeMark "-"
  let _ ← tokenIf fun t =>
    (t.kind = .integer || t.kind = .real) && !t.text.toList.contains '_'

def typeWords : (fuel : Nat) → Parser (List Token)
  | 0 => return []
  | fuel + 1 => do
    if (← peek).isNameOrText then
      let t ← advance
      return t :: (← typeWords fuel)
    else return []

def typeTokens : Parser (List Token) := do
  let before := (← get).tokens
  let words ← typeWords before.length
  if !words.isEmpty && (← atMark "(") then
    mark "("
    signedNumber
    if ← takeMark "," then signedNumber
    mark ")"
  return before.take (before.length - (← remaining))

def termOrder : Parser (Option String) := do
  let _ ← takeOneOf ["ASC", "DESC"]
  if ← takeKeyword "NULLS" then
    if ← takeKeyword "FIRST" then return some "FIRST"
    else
      keyword "LAST"
      return some "LAST"
  else return none

def columnNames : Parser (List String) :=
  inParens <| list do
    let name ← label
    if ← takeKeyword "COLLATE" then
      let _ ← tokenIf Token.isNameOrText
    let _ ← takeOneOf ["ASC", "DESC"]
    return name

def calling : Parser (Option String) := do
  if ← takeKeyword "AS" then some <$> label
  else if (← peek).isNameOrText then return some (← advance).label
  else return none

def resolution : Parser String := do
  let t ← peek
  oneOf ["ROLLBACK", "ABORT", "FAIL", "IGNORE", "REPLACE"]
  return t.word

def startsQuery (t : Token) : Bool :=
  t.isKeyword "SELECT" || t.isKeyword "VALUES" || t.isKeyword "WITH"

/-- The operators between two expressions, each with how tightly it binds. -/
def binaryOperators : List (String × Nat) :=
  [("=", 4), ("<>", 4), ("<", 5), ("<=", 5), (">", 5), (">=", 5), ("&", 7), ("|", 7), ("<<", 7),
   (">>", 7), ("+", 8), ("-", 8), ("*", 9), ("/", 9), ("%", 9), ("||", 10), ("->", 10)]

/-- A join may be called by several words in any order, as long as they fit together. -/
def checkJoin (words : List Token) : Parser Unit := do
  let has := fun w => words.any fun t => t.isKeyword w
  let known := words.all fun t => joinKeywords.contains t.word && t.kind = .keyword
  let sided := has "LEFT" || has "RIGHT" || has "FULL"
  let inner := has "INNER" || has "CROSS"
  if !known || (inner && (has "OUTER" || sided)) || (has "OUTER" && !sided) then
    object ("unknown join type: " ++ " ".intercalate (words.map (·.text))) none

def tableName : Parser String := do
  let first ← label
  if ← takeMark "." then
    modify fun r => { r with databases := r.databases ++ [first] }
    let second ← label
    modify fun r => { r with sources := r.sources ++ [second] }
    return second
  else
    if !(← atMark "(") then modify fun r => { r with sources := r.sources ++ [first] }
    return first

mutual

/-- An expression whose operators bind at least as tightly as `level`. -/
def expression (fuel level : Nat) : Parser Expr := do
  match fuel with
  | 0 => reject
  | fuel + 1 =>
    if ← takeKeyword "NOT" then
      let e ← expression fuel 3
      operators fuel level (.apply "NOT" [e])
    else
      let e ← operand fuel
      operators fuel level e

def operators (fuel level : Nat) (left : Expr) : Parser Expr := do
  match fuel with
  | 0 => reject
  | fuel + 1 =>
    let t ← peek
    match (if t.kind = .mark then binaryOperators.lookup t.word else none) with
    | some n =>
      if n < level then return left
      else
        let _ ← advance
        let right ← expression fuel (n + 1)
        operators fuel level
          (if t.isMark "->" then .call t.text [left, right] {} else .apply t.word [left, right])
    | none =>
      if t.isKeyword "OR" && level ≤ 1 then
        let _ ← advance
        let right ← expression fuel 2
        operators fuel level (.apply "OR" [left, right])
      else if t.isKeyword "AND" && level ≤ 2 then
        let _ ← advance
        let right ← expression fuel 3
        operators fuel level (.apply "AND" [left, right])
      else if t.isKeyword "COLLATE" then
        let _ ← advance
        let name ← tokenIf Token.isNameOrText
        operators fuel level (.apply "COLLATE" [left, .text name.label])
      else if 4 < level then return left
      else if t.isKeyword "ISNULL" || t.isKeyword "NOTNULL" then
        let _ ← advance
        operators fuel level (.apply t.word [left])
      else if t.isKeyword "IS" then
        let _ ← advance
        let negated ← takeKeyword "NOT"
        let distinct ← takeKeyword "DISTINCT"
        if distinct then keyword "FROM"
        let right ← expression fuel 5
        operators fuel level <| match right with
          | .null => .apply (if negated = distinct then "ISNULL" else "NOTNULL") [left]
          | right => .apply (if negated = distinct then "IS" else "IS NOT") [left, right]
      else
        let negated ← takeKeyword "NOT"
        let wrap := fun e => if negated then Expr.apply "NOT" [e] else e
        if ← takeKeywordIf negated "NULL" then
          operators fuel level (.apply "NOTNULL" [left])
        else if ← takeKeyword "BETWEEN" then
          let low ← expression fuel 3
          if ← takeKeyword "OR" then
            let _ ← expression fuel 1
          keyword "AND"
          let high ← expression fuel 5
          operators fuel level (wrap (.apply "BETWEEN" [left, low, high]))
        else if ← takeKeyword "IN" then
          let among ← members fuel left.width
          operators fuel level <| match among with
            | [] => .number (if negated then "1" else "0")
            | among => wrap (.apply "IN" (left :: among))
        else
          let t ← peek
          if t.kind = .keyword && ["LIKE", "GLOB", "REGEXP", "MATCH"].contains t.word then
            let _ ← advance
            let right ← expression fuel 5
            let rest ← if ← takeKeyword "ESCAPE" then
                pure [← expression fuel 7]
              else pure []
            operators fuel level (wrap (.call t.text (right :: left :: rest) {}))
          else if negated then reject
          else return left

/-- What an expression of so many values may be one of. -/
def members (fuel width : Nat) : Parser (List Expr) := do
  match fuel with
  | 0 => reject
  | fuel + 1 =>
    if ← takeMark "(" then
      let among ← if startsQuery (← peek) then do
          let _ ← query fuel
          pure [Expr.query]
        else if ← atMark ")" then pure []
        else separated (expression fuel 1) fuel
      mark ")"
      if width = 1 || among.isEmpty then return among
      else
        match among.find? fun e => e.width ≠ width && !e.isQuery with
        | some e =>
          let terms := if e.width = 1 then "1 term" else s!"{e.width} terms"
          object s!"IN(...) element has {terms} - expected {width}" none
        | none => pure ()
        return [Expr.query]
    else
      let _ ← tableName
      if ← takeMark "(" then
        if !(← atMark ")") then
          let _ ← separated (expression fuel 1) fuel
        mark ")"
      return [Expr.query]

def operand (fuel : Nat) : Parser Expr := do
  match fuel with
  | 0 => reject
  | fuel + 1 =>
    let t ← peek
    match t.kind with
    | .integer | .real =>
      let _ ← advance
      return .number t.text
    | .blob =>
      let _ ← advance
      return .blob t.text
    | .parameter =>
      let _ ← advance
      modify fun r => { r with hasParameter := true }
      return .parameter
    | .mark =>
      if t.isMark "+" || t.isMark "-" || t.isMark "~" then
        let _ ← advance
        let e ← operand fuel
        let e ← operators fuel 11 e
        return .apply ("unary " ++ t.word) [e]
      else if t.isMark "(" then
        let _ ← advance
        if startsQuery (← peek) then
          let _ ← query fuel
          mark ")"
          return .query
        else
          let es ← separated (expression fuel 1) fuel
          mark ")"
          match es with
          | [e] => return e
          | es => return .apply "row" es
      else reject
    | _ =>
      if t.isKeyword "NULL" then
        let _ ← advance
        return .null
      else if t.isKeyword "NOT" then
        let _ ← advance
        return .apply "NOT" [← expression fuel 3]
      else if t.isKeyword "CASE" then
        let _ ← advance
        let subject ← if ← atKeyword "WHEN" then pure [] else pure [← expression fuel 1]
        let branches ← cases fuel
        let rest ← if ← takeKeyword "ELSE" then pure [← expression fuel 1] else pure []
        keyword "END"
        let op := if subject.isEmpty then "CASE" else "CASE OF"
        return .apply op (subject ++ branches ++ rest)
      else if t.isKeyword "EXISTS" then
        let _ ← advance
        mark "("
        if startsQuery (← peek) then
          let _ ← query fuel
        else reject
        mark ")"
        return .query
      else if t.isKeyword "CAST" then
        let _ ← advance
        mark "("
        let e ← expression fuel 1
        keyword "AS"
        let type ← typeTokens
        mark ")"
        return .apply "CAST" [e, .text (" ".intercalate (type.map (·.text)))]
      else if t.isKeyword "RAISE" then
        let _ ← advance
        mark "("
        if !(← takeKeyword "IGNORE") then
          oneOf ["ROLLBACK", "ABORT", "FAIL"]
          mark ","
          let message ← label
          mark ")"
          return .apply "RAISE" [.text message]
        else
          mark ")"
          return .apply "RAISE" []
      else if ["CURRENT_DATE", "CURRENT_TIME", "CURRENT_TIMESTAMP"].contains t.word
          && t.kind = .keyword then
        let _ ← advance
        return .call t.text [] {}
      else if t.isFreeName && (← peekAt 1).isMark "(" then
        let _ ← advance
        application fuel t.label
      else if t.isLabel && (← peekAt 1).isMark "." then
        let _ ← advance
        mark "."
        let second ← label
        if ← takeMark "." then return .name [t.label, second, ← label] none
        else return .name [t.label, second] none
      else if t.kind = .text then
        let _ ← advance
        return .text t.word
      else if t.isFreeName then
        let _ ← advance
        return .name [t.label] (if t.kind = .quotedName then t.text.toList.head? else none)
      else reject

def cases (fuel : Nat) : Parser (List Expr) := do
  match fuel with
  | 0 => reject
  | fuel + 1 =>
    keyword "WHEN"
    let condition ← expression fuel 1
    keyword "THEN"
    let value ← expression fuel 1
    if ← atKeyword "WHEN" then return condition :: value :: (← cases fuel)
    else return [condition, value]

def application (fuel : Nat) (function : String) : Parser Expr := do
  match fuel with
  | 0 => reject
  | fuel + 1 =>
    mark "("
    let args ← if ← takeMark "*" then pure []
      else do
        let _ ← takeOneOf ["DISTINCT", "ALL"]
        let args ← if (← atMark ")") || (← atKeyword "ORDER") then pure []
          else separated (expression fuel 1) fuel
        if ← takeKeyword "ORDER" then
          keyword "BY"
          let _ ← separated (keyTerm fuel) fuel
        pure args
    mark ")"
    let filtered ← takeKeyword "FILTER"
    if filtered then
      mark "("
      keyword "WHERE"
      let _ ← expression fuel 1
      mark ")"
    let windowed ← takeKeyword "OVER"
    if windowed then
      if ← takeMark "(" then
        window fuel
        mark ")"
      else
        let _ ← label
    return .call function args ⟨windowed, filtered⟩

def keyTerm (fuel : Nat) : Parser KeyTerm := do
  match fuel with
  | 0 => reject
  | fuel + 1 =>
    let place := (← peek).start
    let value ← expression fuel 1
    let nulls ← termOrder
    return ⟨value, nulls, place⟩

def window (fuel : Nat) : Parser Unit := do
  match fuel with
  | 0 => reject
  | fuel + 1 =>
    let t ← peek
    let special := t.kind = .keyword
      && ["PARTITION", "ORDER", "RANGE", "ROWS", "GROUPS"].contains t.word
    if t.isLabel && !special then
      let _ ← advance
    if ← takeKeyword "PARTITION" then
      keyword "BY"
      let _ ← separated (expression fuel 1) fuel
    if ← takeKeyword "ORDER" then
      keyword "BY"
      let _ ← separated (keyTerm fuel) fuel
    if ← takeOneOf ["RANGE", "ROWS", "GROUPS"] then
      if ← takeKeyword "BETWEEN" then
        bound fuel "PRECEDING"
        keyword "AND"
        bound fuel "FOLLOWING"
      else bound fuel "PRECEDING"
      if ← takeKeyword "EXCLUDE" then
        if ← takeKeyword "NO" then keyword "OTHERS"
        else if ← takeKeyword "CURRENT" then keyword "ROW"
        else oneOf ["GROUP", "TIES"]

def bound (fuel : Nat) (direction : String) : Parser Unit := do
  match fuel with
  | 0 => reject
  | fuel + 1 =>
    if ← takeKeyword "UNBOUNDED" then keyword direction
    else if ← takeKeyword "CURRENT" then keyword "ROW"
    else
      let _ ← expression fuel 1
      oneOf ["PRECEDING", "FOLLOWING"]

def query (fuel : Nat) : Parser (Option Selection) := do
  match fuel with
  | 0 => reject
  | fuel + 1 =>
    let isNamed ← takeKeyword "WITH"
    if isNamed then
      let _ ← takeKeyword "RECURSIVE"
      let _ ← separated (commonTable fuel) fuel
    let (wrong, single) ← compound fuel
    match wrong with
    | some message => object message none
    | none => pure ()
    return if isNamed then none else single

def commonTable (fuel : Nat) : Parser Unit := do
  match fuel with
  | 0 => reject
  | fuel + 1 =>
    let name ← label
    modify fun r => { r with locals := r.locals ++ [name] }
    if ← atMark "(" then
      let _ ← columnNames
    keyword "AS"
    if ← takeKeyword "NOT" then keyword "MATERIALIZED"
    else
      let _ ← takeKeyword "MATERIALIZED"
    mark "("
    let _ ← query fuel
    mark ")"

/-- Selections put together.  Tells what is wrong with the order of their clauses, and the
selection if it is a single one. -/
def compound (fuel : Nat) : Parser (Option String × Option Selection) := do
  match fuel with
  | 0 => reject
  | fuel + 1 =>
    let (ends, single) ← selection fuel
    let t ← peek
    if ← takeOneOf ["UNION", "EXCEPT", "INTERSECT"] then
      let all ← takeKeywordIf (t.isKeyword "UNION") "ALL"
      let operator := if all then "UNION ALL" else t.word
      let (wrong, _) ← compound fuel
      return (wrong.or (ends.map fun clause =>
        s!"{clause} clause should come after {operator} not before"), none)
    else return (none, single)

/-- One selection.  Tells with which clause it is already ordered or limited. -/
def selection (fuel : Nat) : Parser (Option String × Option Selection) := do
  match fuel with
  | 0 => reject
  | fuel + 1 =>
    if ← takeKeyword "VALUES" then
      let rows ← separated (inParens (separated (expression fuel 1) fuel)) fuel
      match rows with
      | [values] =>
        let results := values.mapIdx fun k e => (⟨some e, some s!"column{k + 1}"⟩ : ResultColumn)
        return (none, some ⟨results, none, []⟩)
      | _ => return (none, none)
    else
      keyword "SELECT"
      let _ ← takeOneOf ["DISTINCT", "ALL"]
      let results ← separated (resultColumn fuel) fuel
      let tables ← if ← takeKeyword "FROM" then joined fuel true else pure []
      let condition ← if ← takeKeyword "WHERE" then pure (some (← expression fuel 1))
        else pure none
      if ← takeKeyword "GROUP" then
        keyword "BY"
        let _ ← separated (expression fuel 1) fuel
      if ← takeKeyword "HAVING" then
        let _ ← expression fuel 1
      if ← takeKeyword "WINDOW" then
        let _ ← separated (namedWindow fuel) fuel
      let ordered ← takeKeyword "ORDER"
      if ordered then
        keyword "BY"
        let _ ← separated (keyTerm fuel) fuel
      let limited ← takeKeyword "LIMIT"
      if limited then
        let _ ← expression fuel 1
        if ← (if ← takeKeyword "OFFSET" then pure true else takeMark ",") then
          let _ ← expression fuel 1
      let clause := if ordered then some "ORDER BY" else if limited then some "LIMIT" else none
      return (clause, some ⟨results, condition, tables⟩)

def namedWindow (fuel : Nat) : Parser Unit := do
  match fuel with
  | 0 => reject
  | fuel + 1 =>
    let _ ← label
    keyword "AS"
    mark "("
    window fuel
    mark ")"

def resultColumn (fuel : Nat) : Parser ResultColumn := do
  match fuel with
  | 0 => reject
  | fuel + 1 =>
    if ← takeMark "*" then return ⟨none, none⟩
    else if (← peek).isLabel && (← peekAt 1).isMark "." && (← peekAt 2).isMark "*" then
      let _ ← label
      mark "."
      mark "*"
      return ⟨none, none⟩
    else
      let e ← expression fuel 1
      let name ← calling
      let own := match e with
        | .name parts _ => parts.getLast?
        | _ => none
      return ⟨some e, name.or own⟩

/-- Tables joined; only what is joined to another table may say how. -/
def joined (fuel : Nat) (isFirst : Bool) : Parser (List (Option String)) := do
  match fuel with
  | 0 => reject
  | fuel + 1 =>
    let first ← source fuel isFirst
    let t ← peek
    if ← takeMark "," then return first :: (← joined fuel false)
    else if ← takeKeyword "JOIN" then return first :: (← joined fuel false)
    else if t.kind = .keyword && joinKeywords.contains t.word then
      let _ ← advance
      let words ← joinWords 2
      keyword "JOIN"
      checkJoin (t :: words)
      return first :: (← joined fuel false)
    else return [first]

def joinWords (count : Nat) : Parser (List Token) := do
  match count with
  | 0 => return []
  | count + 1 =>
    if (← peek).isLabel then
      let t ← advance
      return t :: (← joinWords count)
    else return []

def source (fuel : Nat) (isFirst : Bool) : Parser (Option String) := do
  match fuel with
  | 0 => reject
  | fuel + 1 =>
    let name ← if ← takeMark "(" then do
        if startsQuery (← peek) then
          let _ ← query fuel
        else
          let _ ← joined fuel true
        mark ")"
        let _ ← calling
        pure none
      else do
        let name ← tableName
        if ← takeMark "(" then
          if !(← atMark ")") then
            let _ ← separated (expression fuel 1) fuel
          mark ")"
          let _ ← calling
          pure none
        else
          let _ ← calling
          if ← takeKeyword "INDEXED" then
            keyword "BY"
            let _ ← label
          else if ← takeKeyword "NOT" then keyword "INDEXED"
          pure (some name)
    if ← takeKeyword "ON" then
      let _ ← expression fuel 1
      if isFirst then object "a JOIN clause is required before ON" none
    else if ← takeKeyword "USING" then
      let _ ← inParens (list label)
      if isFirst then object "a JOIN clause is required before USING" none
    return name

end

def anyExpression : Parser Expr := do expression (4 * (← remaining) + 8) 1

def anyQuery : Parser (Option Selection) := do query (4 * (← remaining) + 8)

def resultColumns : Parser Unit := do
  let fuel := 4 * (← remaining) + 8
  let _ ← list (resultColumn fuel)

def joinedTables : Parser (List (Option String)) := do joined (4 * (← remaining) + 8) true

def keyTerms : Parser (List KeyTerm) := do
  let fuel := 4 * (← remaining) + 8
  list (keyTerm fuel)

end Parser

end SymbolAtlas.Sql
