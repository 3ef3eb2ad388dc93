import SymbolAtlas.Number.Bounds
import SymbolAtlas.Sql.Resolution

/-!
The values of expressions over the columns of one row.  Nothing is computed with real numbers or
blobs: where that matters the value cannot be told.
-/

namespace SymbolAtlas.Sql

/-- A value.  A real number is an integer divided by a power of ten. -/
inductive Value where
  | null
  | integer (n : Int)
  | real (n : Int) (places : Nat)
  | text (s : String)
  | blob (bytes : List UInt8)
deriving DecidableEq

/-- A row of a table: its number, if rows have one there, and the values of its columns as far as
they can be told. -/
structure Row where
  number : Option Int
  values : List (String × Value)

namespace Row

def value? (row : Row) (column : String) : Option Value :=
  (row.values.find? fun v => sameName v.1 column).map (·.2)

end Row

abbrev Contents := TableDef → List Row

def placeOf (part : List Char) : List Char → Nat
  | [] => if part.isEmpty then 1 else 0
  | c :: cs =>
    if part.isPrefixOf (c :: cs) then 1
    else
      match placeOf part cs with
      | 0 => 0
      | n => n + 1

inductive Affinity where
  | blob
  | text
  | numeric
deriving DecidableEq

namespace Affinity

def ofType (type : String) : Affinity :=
  let has := fun (part : String) => placeOf part.toList (type.map Char.toUpper).toList ≠ 0
  if has "INT" then numeric
  else if has "CHAR" || has "CLOB" || has "TEXT" then text
  else if has "BLOB" || type = "" then blob
  else numeric

end Affinity

namespace Value

def ofBool (b : Bool) : Value := integer (if b then 1 else 0)

def integerOf? (s : String) : Option Int :=
  match (s.toList.dropWhile isSpace).reverse.dropWhile isSpace |>.reverse with
  | '-' :: r => (digits r).map fun n => -(n : Int)
  | '+' :: r => (digits r).map fun n => (n : Int)
  | r => (digits r).map fun n => (n : Int)
where
  digits (r : List Char) : Option Nat :=
    if r.isEmpty || !r.all Char.isDigit then none
    else some (r.foldl (fun n c => n * 10 + (c.toNat - '0'.toNat)) 0)

/-- A value as a column of an affinity keeps it. -/
def within (a : Affinity) (v : Value) : Value :=
  match a, v with
  | .numeric, text s => ((integerOf? s).map integer).getD v
  | .text, integer n => text (toString n)
  | _, _ => v

def isNonzero (s : String) : Bool :=
  let r := s.toList.dropWhile isSpace
  let r := if r.head? = some '-' || r.head? = some '+' then r.drop 1 else r
  let whole := r.takeWhile Char.isDigit
  let rest := r.drop whole.length
  let part := if rest.head? = some '.' then (rest.drop 1).takeWhile Char.isDigit else []
  (whole ++ part).any (· ≠ '0')

/-- Whether a value holds as a condition; a null neither holds nor fails. -/
def truth : Value → Option Bool
  | null => none
  | integer n => some (n ≠ 0)
  | real n _ => some (n ≠ 0)
  | text s => some (isNonzero s)
  | blob _ => some true

def ofTruth : Option Bool → Value
  | none => null
  | some b => ofBool b

def shifted (n : Int) : Nat → Int
  | 0 => n
  | places + 1 => shifted (n * 10) places

/-- Where the values of a kind come in the order of all values. -/
def rank : Value → Nat
  | null => 0
  | integer _ | real _ _ => 1
  | text _ => 2
  | blob _ => 3

def before (fold : Bool) : Value → Value → Bool
  | integer a, integer b => a < b
  | integer a, real b k => shifted a k < b
  | real a k, integer b => a < shifted b k
  | real a j, real b k => shifted a k < shifted b j
  | text a, text b => if fold then a.toLower < b.toLower else a < b
  | a, b => a.rank < b.rank

def same (fold : Bool) : Value → Value → Bool
  | text a, text b => if fold then a.toLower = b.toLower else a = b
  | integer a, real b k => shifted a k = b
  | real a k, integer b => a = shifted b k
  | real a j, real b k => shifted a k = shifted b j
  | a, b => a = b

def leadingInteger (s : List Char) : Int :=
  let r := s.dropWhile isSpace
  let digits := (if r.head? = some '-' || r.head? = some '+' then r.drop 1 else r).takeWhile
    Char.isDigit
  let n : Nat := digits.foldl (fun n c => n * 10 + (c.toNat - '0'.toNat)) 0
  if r.head? = some '-' then -(n : Int) else n

/-- A value as an integer of 64 bits; what is no number counts as zero. -/
def toInteger (v : Value) : Int :=
  let n := match v with
    | null => 0
    | integer n => n
    | real n places => Int.tdiv n (shifted 1 places)
    | text s => leadingInteger s.toList
    | blob bytes => leadingInteger (bytes.map fun b => Char.ofNat b.toNat)
  max (-(int64Bound : Int)) (min n (int64Bound - 1))

def compare (fold : Bool) (op : String) (a b : Value) : Option Bool :=
  if a = null || b = null then none
  else
    match op with
    | "=" => some (same fold a b)
    | "<>" => some (!same fold a b)
    | "<" => some (before fold a b)
    | "<=" => some (before fold a b || same fold a b)
    | ">" => some (before fold b a)
    | _ => some (before fold b a || same fold a b)

def both : Option Bool → Option Bool → Option Bool
  | some false, _ => some false
  | _, some false => some false
  | some true, some true => some true
  | _, _ => none

def either (a b : Option Bool) : Option Bool :=
  (both (a.map not) (b.map not)).map not

def render : Value → String
  | integer n => toString n
  | text s => s
  | _ => ""

def isPlain : Value → Bool
  | real _ _ | blob _ => false
  | _ => true

def kind : Value → String
  | null => "null"
  | integer _ => "integer"
  | real _ _ => "real"
  | text _ => "text"
  | blob _ => "blob"

/-- Whether a text is like a pattern, in which one character stands for any text and another one
for any character. -/
def isLike (many one : Char) (fold : Bool) : (pattern chars : List Char) → Bool
  | [], cs => cs.isEmpty
  | p :: ps, [] => p = many && isLike many one fold ps []
  | p :: ps, c :: cs =>
    if p = many then isLike many one fold ps (c :: cs) || isLike many one fold (p :: ps) cs
    else (p = one || (if fold then p.toLower = c.toLower else p = c)) && isLike many one fold ps cs
termination_by ps cs => ps.length + cs.length

def strictFunctions : List String :=
  ["length", "lower", "upper", "like", "glob", "instr", "substr", "substring", "abs", "unicode",
   "trim", "ltrim", "rtrim", "replace", "max", "min", "octet_length"]

def trimmed (front back : Bool) (cs : List Char) (s : String) : String :=
  let s := if front then s.toList.dropWhile cs.contains else s.toList
  String.ofList (if back then (s.reverse.dropWhile cs.contains).reverse else s)

def hexDigits (b : UInt8) : List Char :=
  [b.toNat / 16, b.toNat % 16].map fun n => (Nat.digitChar n).toUpper

/-- So many characters of a text from a place on, which is counted from one, or from the end if it
is negative.  A negative number of characters is taken before the place. -/
def part (s : List Char) (place : Int) (count : Option Int) : String :=
  let length : Int := s.length
  let wanted : Int := (count.map fun n => (n.natAbs : Int)).getD (length + place.natAbs + 1)
  let (start, taken) : Int × Int :=
    if place < 0 then
      let start := place + length
      if start < 0 then (0, max 0 (wanted + start)) else (start, wanted)
    else if 0 < place then (place - 1, wanted)
    else (0, if 0 < wanted then wanted - 1 else wanted)
  let (start, taken) : Int × Int :=
    if count.getD 0 < 0 then
      let start := start - taken
      if start < 0 then (0, taken + start) else (start, taken)
    else (start, taken)
  String.ofList ((s.drop start.toNat).take taken.toNat)

def word (n : Int) : Nat := (Int.emod n word64Bound).toNat

def ofWord (n : Nat) : Value := integer (Int.bmod n word64Bound)

def moved (n places : Int) : Value :=
  let bits := min places.natAbs 64
  if 0 ≤ places then ofWord (word (n * Nat.pow 2 bits))
  else integer (Int.fdiv n (Nat.pow 2 bits))

def cast? (type : String) (v : Value) : Option Value :=
  match v, Affinity.ofType type with
  | null, _ => some null
  | v, .text => if v.isPlain then some (text v.render) else none
  | v, .numeric =>
    if placeOf "INT".toList (type.map Char.toUpper).toList ≠ 0 then some (integer v.toInteger)
    else none
  | _, .blob => none

/-- The value of a function at some values, if it can be told. -/
def call? (function : String) (args : List Value) : Option Value :=
  match function.toLower, args with
  | "typeof", [v] => some (text v.kind)
  | "coalesce", vs => some ((vs.find? (· ≠ null)).getD null)
  | "ifnull", [a, b] => some (if a = null then b else a)
  | "nullif", [a, b] => some (if a ≠ null && b ≠ null && a = b then null else a)
  | "iif", [c, a, b] => some (if c.truth = some true then a else b)
  | "likely", [v] | "unlikely", [v] | "likelihood", [v, _] => some v
  | name, args =>
    if !args.all isPlain then none
    else if name = "quote" && args = [null] then some (text "NULL")
    else if args.any (· = null) then
      if strictFunctions.contains name then some null else none
    else
      match name, args with
      | "length", [v] => some (integer v.render.length)
      | "lower", [v] => some (text v.render.toLower)
      | "upper", [v] => some (text (v.render.map Char.toUpper))
      | "like", [p, v] =>
        some (ofBool (isLike '%' '_' true p.render.toList v.render.toList))
      | "glob", [p, v] =>
        if p.render.toList.contains '[' then none
        else some (ofBool (isLike '*' '?' false p.render.toList v.render.toList))
      | "instr", [v, p] => some (integer (placeOf p.render.toList v.render.toList))
      | "abs", [integer n] => some (integer n.natAbs)
      | "unicode", [v] =>
        some ((v.render.toList.head?.map fun c => integer c.toNat).getD null)
      | "char", vs => some (text (String.ofList (vs.map fun v => Char.ofNat v.toInteger.toNat)))
      | "trim", [v] => some (text (trimmed true true [' '] v.render))
      | "ltrim", [v] => some (text (trimmed true false [' '] v.render))
      | "rtrim", [v] => some (text (trimmed false true [' '] v.render))
      | "trim", [v, cs] => some (text (trimmed true true cs.render.toList v.render))
      | "ltrim", [v, cs] => some (text (trimmed true false cs.render.toList v.render))
      | "rtrim", [v, cs] => some (text (trimmed false true cs.render.toList v.render))
      | "hex", [v] => some (text (String.ofList (v.render.toUTF8.toList.flatMap hexDigits)))
      | "quote", [text s] => some (text ("'" ++ s.replace "'" "''" ++ "'"))
      | "quote", [integer n] => some (text (toString n))
      | "replace", [v, p, r] =>
        some (text (if p.render = "" then v.render else v.render.replace p.render r.render))
      | "max", v :: vs => some (vs.foldl (fun m w => if before false m w then w else m) v)
      | "min", v :: vs => some (vs.foldl (fun m w => if before false w m then w else m) v)
      | "concat", vs => some (text (String.join (vs.map render)))
      | "octet_length", [v] => some (integer v.render.utf8ByteSize)
      | "substr", [v, n] | "substring", [v, n] =>
        some (text (part v.render.toList n.toInteger none))
      | "substr", [v, n, k] | "substring", [v, n, k] =>
        some (text (part v.render.toList n.toInteger (some k.toInteger)))
      | _, _ => none

def number? : Value → Option Int
  | integer n => some n
  | text s => if isNonzero s then integerOf? s else some 0
  | _ => none

def operate? (fold : Bool) (op : String) (args : List Value) : Option Value :=
  match op, args with
  | "NOT", [a] => some (ofTruth (a.truth.map not))
  | "AND", [a, b] => some (ofTruth (both a.truth b.truth))
  | "OR", [a, b] => some (ofTruth (either a.truth b.truth))
  | "ISNULL", [a] => some (ofBool (a = null))
  | "NOTNULL", [a] => some (ofBool (a ≠ null))
  | "IS", [a, b] => some (ofBool (same fold a b))
  | "IS NOT", [a, b] => some (ofBool (!same fold a b))
  | "COLLATE", [a, _] => some a
  | "BETWEEN", [a, low, high] =>
    some (ofTruth (both (compare fold ">=" a low) (compare fold "<=" a high)))
  | "IN", a :: among =>
    some (ofTruth (among.foldl (fun r b => either r (compare fold "=" a b)) (some false)))
  | "CAST", [a, text type] => a.cast? type
  | "unary ~", [a] => if a = null then some null else a.number?.map fun n => integer (-n - 1)
  | "unary +", [a] => some a
  | "unary -", [null] => some null
  | "unary -", [real n k] => some (real (-n) k)
  | "unary -", [a] => a.number?.map fun n => integer (-n)
  | "||", [a, b] =>
    if a = null || b = null then some null
    else if a.isPlain && b.isPlain then some (text (a.render ++ b.render))
    else none
  | "row", _ => none
  | op, [a, b] =>
    if ["=", "<>", "<", "<=", ">", ">="].contains op then some (ofTruth (compare fold op a b))
    else if a = null || b = null then some null
    else
      match op, a.number?, b.number? with
      | "+", some m, some n => some (integer (m + n))
      | "-", some m, some n => some (integer (m - n))
      | "*", some m, some n => some (integer (m * n))
      | "/", some m, some n => some (if n = 0 then null else integer (Int.tdiv m n))
      | "%", some m, some n => some (if n = 0 then null else integer (Int.tmod m n))
      | "<<", some m, some n => some (moved m n)
      | ">>", some m, some n => some (moved m (-n))
      | "&", some m, some n => some (ofWord (Nat.land (word m) (word n)))
      | "|", some m, some n => some (ofWord (Nat.lor (word m) (word n)))
      | _, _, _ => none
  | _, _ => none

def branch? (test : Value → Bool) : List Value → Value
  | condition :: value :: rest => if test condition then value else branch? test rest
  | [value] => value
  | [] => null

end Value

namespace Expr

def affinity? (t : TableDef) (e : Expr) : Option Affinity :=
  ((e.column? t).bind t.column?).map fun c => .ofType c.type

/-- Whether letters are compared whatever their case where an expression is compared. -/
def folds (t : TableDef) (e : Expr) : Bool :=
  let collation := e.collation?.or (((e.column? t).bind t.column?).map (·.collation))
  (collation.map (sameName · "NOCASE")).getD false

/-- Values as they are compared: what is compared with a number is made one if it can be. -/
def compared (t : TableDef) (es : List Expr) (vs : List Value) : List Value :=
  let affinities := es.map (affinity? t)
  let target : Affinity :=
    if affinities.contains (some .numeric) then .numeric
    else if affinities.contains (some .text) && affinities.contains none then .text
    else .blob
  (affinities.zip vs).map fun (a, v) =>
    if target = .text && a = some .blob then v else v.within target

def hexValue (c : Char) : Nat :=
  if c.isDigit then c.toNat - '0'.toNat else c.toLower.toNat - 'a'.toNat + 10

def bytesOf : List Char → List UInt8
  | a :: b :: r => UInt8.ofNat (hexValue a * 16 + hexValue b) :: bytesOf r
  | _ => []

def numberOf? (written : String) : Option Value :=
  let plain := written.toList.filter (· ≠ '_')
  let whole := plain.takeWhile (· ≠ '.')
  let part := (plain.drop whole.length).drop 1
  match plain with
  | '0' :: x :: r =>
    if x.toLower = 'x' then
      some (.integer (Int.ofNat (r.foldl (fun n c => n * 16 + hexValue c) 0)))
    else decimal whole part
  | _ => decimal whole part
where
  decimal (whole part : List Char) : Option Value :=
    (Value.integerOf? (String.ofList (whole ++ part))).map fun n =>
      if part.isEmpty then .integer n else .real n part.length

mutual

/-- The value of an expression in a row, if it can be told. -/
def eval? (t : TableDef) (row : List (String × Value)) : Expr → Option Value
  | null => some .null
  | number written => numberOf? written
  | text s => some (.text s)
  | blob written => some (.blob (bytesOf ((written.toList.drop 2).dropLast)))
  | name parts quote =>
    match meaning .check t parts quote with
    | .column c => row.lookup c
    | .literal =>
      if quote.isSome then some (.text (parts.getLastD ""))
      else some (.ofBool (sameName (parts.getLastD "") "true"))
    | .row => some ((row.lookup "rowid").getD (.integer 1))
    | .missing _ => none
  | call function args _ => (evalAll? t row args).bind (Value.call? function)
  | apply op args =>
    (evalAll? t row args).bind fun vs =>
      if op = "CASE" then some (Value.branch? (fun v => v.truth = some true) vs)
      else if op = "CASE OF" then
        some (Value.branch? (fun v => Value.compare false "=" (vs.headD .null) v = some true)
          (vs.drop 1))
      else
        let isCompared := comparisons.contains op || op = "IN"
        Value.operate? (args.any (folds t)) op (if isCompared then compared t args vs else vs)
  | _ => none

def evalAll? (t : TableDef) (row : List (String × Value)) : List Expr → Option (List Value)
  | [] => some []
  | e :: es => do
    let v ← eval? t row e
    let vs ← evalAll? t row es
    some (v :: vs)

end

mutual

def unknownFunction? : Expr → Option String
  | call function args _ =>
    match callee function args.length with
    | .unknown => some function
    | _ => unknownAmong? args
  | apply _ args => unknownAmong? args
  | _ => none

def unknownAmong? : List Expr → Option String
  | [] => none
  | e :: es => (unknownFunction? e).or (unknownAmong? es)

end

end Expr

end SymbolAtlas.Sql
