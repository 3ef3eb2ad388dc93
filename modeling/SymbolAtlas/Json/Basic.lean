import SymbolAtlas.Number.Shortest

/-!
JSON values and their compact text.  An object keeps its members as they were written, repeats
included; its canonical form has each name once, with the last value, in the order of the names.
-/

namespace SymbolAtlas

/-- A JSON value.  Integers are those from `-2 ^ 63` up to but excluding `2 ^ 64`; every other
number is a real. -/
inductive Json where
  | null
  | bool (value : Bool)
  | int (value : Int)
  | real (negative : Bool) (magnitude : Binary64)
  | str (value : String)
  | arr (items : List Json)
  | obj (members : List (String × Json))

namespace Json

instance : Inhabited Json := ⟨null⟩

def member? (name : String) (members : List (String × Json)) : Option Json :=
  (members.reverse.find? fun m => m.1 == name).map Prod.snd

def get? (name : String) : Json → Option Json
  | obj members => member? name members
  | _ => none

def str? : Json → Option String
  | str s => some s
  | _ => none

def insertMember (name : String) (value : Json) : List (String × Json) → List (String × Json)
  | [] => [(name, value)]
  | (n, v) :: rest =>
    if name < n then (name, value) :: (n, v) :: rest
    else if name = n then (name, value) :: rest
    else (n, v) :: insertMember name value rest

/-- Members in the order of their names, the last of equal names winning. -/
def sortMembers (members : List (String × Json)) : List (String × Json) :=
  members.foldl (fun sorted m => insertMember m.1 m.2 sorted) []

mutual

def canonical : Json → Json
  | arr items => arr (canonicalItems items)
  | obj members => obj (sortMembers (canonicalMembers members))
  | v => v

def canonicalItems : List Json → List Json
  | [] => []
  | v :: rest => canonical v :: canonicalItems rest

def canonicalMembers : List (String × Json) → List (String × Json)
  | [] => []
  | (name, v) :: rest => (name, canonical v) :: canonicalMembers rest

end

/-- Reals are positional from `1e-5` up to but excluding `1e16`. -/
def realFormat : RealFormat := ⟨-5, 16⟩

def hexDigit (n : Nat) : Char := (Nat.toDigits 16 n).headD '0'

/-- A character inside a quoted text.  Only the quote, the backslash and the control characters
are escaped. -/
def escapeChar (c : Char) : List Char :=
  if c = '\x22' then ['\\', '\x22']
  else if c = '\\' then ['\\', '\\']
  else if c = '\x08' then ['\\', 'b']
  else if c = '\x0c' then ['\\', 'f']
  else if c = '\n' then ['\\', 'n']
  else if c = '\r' then ['\\', 'r']
  else if c = '\t' then ['\\', 't']
  else if c.toNat < 32 then
    ['\\', 'u', '0', '0', hexDigit (c.toNat / 16), hexDigit (c.toNat % 16)]
  else [c]

def quoted (text : String) : List Char := '\x22' :: text.toList.flatMap escapeChar ++ ['\x22']

def intChars (i : Int) : List Char :=
  RealFormat.sign (decide (i < 0)) ++ RealFormat.natDigits i.natAbs

mutual

def chars : Json → List Char
  | null => ['n', 'u', 'l', 'l']
  | bool true => ['t', 'r', 'u', 'e']
  | bool false => ['f', 'a', 'l', 's', 'e']
  | int i => intChars i
  | real negative x => realFormat.chars negative x
  | str s => quoted s
  | arr items => '[' :: charsItems items ++ [']']
  | obj members => '\x7b' :: charsMembers members ++ ['\x7d']

def charsItems : List Json → List Char
  | [] => []
  | [v] => chars v
  | v :: w :: rest => chars v ++ ',' :: charsItems (w :: rest)

def charsMembers : List (String × Json) → List Char
  | [] => []
  | [(name, v)] => quoted name ++ ':' :: chars v
  | (name, v) :: w :: rest => quoted name ++ ':' :: chars v ++ ',' :: charsMembers (w :: rest)

end

/-- The compact text of the canonical form. -/
def text (v : Json) : String := String.ofList (chars (canonical v))

end Json

end SymbolAtlas
