import LivePage.Dict
import LivePage.Number.Literal
import LivePage.Number.Shortest
import LivePage.Text.Quoted

/-!
# Documents

A JSON value.  The members of an object are a list of pairs: values that the
library builds have their members in ascending key order, each key once
(`ofDict`, `ofMembers`), while a document just read may still hold a key twice,
since whether that is an error depends on what is read from it.
-/

namespace LivePage

/-- A JSON value. -/
inductive Json where
  | null
  | bool (value : Bool)
  | num (value : Number)
  | str (value : String)
  | arr (items : List Json)
  | obj (members : List (String × Json))
deriving Repr, Inhabited

namespace Json

def ofDict (d : Dict Json) : Json :=
  obj d.entries

/-- The object with these members in ascending key order. -/
def ofMembers (members : List (String × Json)) : Json :=
  ofDict (Dict.ofList members)

def ofInt (i : Int) : Json :=
  num (.int i)

/-- The natural number as a value. -/
def ofNat (n : Nat) : Json :=
  ofInt n

/-- The value, or null where there is none. -/
def ofOption : Option Json → Json :=
  (·.getD null)

mutual

/-- Whether two values are the same document: numbers by `Number.same`, members
pair by pair. -/
def same : Json → Json → Bool
  | null, null => true
  | bool a, bool b => a == b
  | num a, num b => a.same b
  | str a, str b => a == b
  | arr a, arr b => sameItems a b
  | obj a, obj b => sameMembers a b
  | _, _ => false

def sameItems : List Json → List Json → Bool
  | [], [] => true
  | a :: as, b :: bs => same a b && sameItems as bs
  | _, _ => false

def sameMembers : List (String × Json) → List (String × Json) → Bool
  | [], [] => true
  | (k, a) :: as, (l, b) :: bs => k == l && same a b && sameMembers as bs
  | _, _ => false

end

instance : BEq Json := ⟨same⟩

mutual

/-- The value with the members of every object in ascending key order, of
members with one key only the last. -/
def sorted : Json → Json
  | arr items => arr (sortedItems items)
  | obj members => ofMembers (sortedMembers members)
  | value => value

def sortedItems : List Json → List Json
  | [] => []
  | a :: rest => sorted a :: sortedItems rest

def sortedMembers : List (String × Json) → List (String × Json)
  | [] => []
  | (k, a) :: rest => (k, sorted a) :: sortedMembers rest

end

/-! ## Compact text -/

/-- A character between the quotes of a JSON string. -/
def escapeChar (c : Char) : List Char :=
  if c = '"' then ['\\', '"']
  else if c = '\\' then ['\\', '\\']
  else if c = '\n' then ['\\', 'n']
  else if c = '\r' then ['\\', 'r']
  else if c = '\t' then ['\\', 't']
  else if c.toNat = 0x08 then ['\\', 'b']
  else if c.toNat = 0x0C then ['\\', 'f']
  else if c.toNat < 0x20 then
    ['\\', 'u', '0', '0'] ++ (if c.toNat < 0x10 then ['0'] else []) ++ Text.hexDigits c.toNat
  else [c]

/-- A text as a JSON string. -/
def escape (s : String) : String :=
  String.ofList ('"' :: s.toList.flatMap escapeChar ++ ['"'])

def numberText : Number → String
  | .int i => Numeral.intText i
  | .double x => x.text

mutual

/-- The value as compact JSON text, members in the order they stand in. -/
def compact : Json → String
  | null => "null"
  | bool true => "true"
  | bool false => "false"
  | num n => numberText n
  | str s => escape s
  | arr items => "[" ++ ",".intercalate (compactItems items) ++ "]"
  | obj members => "\x7b" ++ ",".intercalate (compactMembers members) ++ "\x7d"

def compactItems : List Json → List String
  | [] => []
  | a :: rest => compact a :: compactItems rest

def compactMembers : List (String × Json) → List String
  | [] => []
  | (k, a) :: rest => (escape k ++ ":" ++ compact a) :: compactMembers rest

end

/-! ## Text over several lines -/

/-- The spaces in front of a line at a nesting level. -/
def indent (level : Nat) : String :=
  String.ofList (List.replicate (2 * level) ' ')

/-- The lines of a container, between its brackets. -/
def block (opening closing : String) (level : Nat) (lines : List String) : String :=
  if lines.isEmpty then opening ++ closing
  else
    opening ++ "\n" ++ ",\n".intercalate (lines.map (indent (level + 1) ++ ·)) ++ "\n" ++
      indent level ++ closing

mutual

/-- The value as JSON text with one member or item a line. -/
def pretty (level : Nat) : Json → String
  | arr items => block "[" "]" level (prettyItems (level + 1) items)
  | obj members => block "\x7b" "\x7d" level (prettyMembers (level + 1) members)
  | value => compact value

def prettyItems (level : Nat) : List Json → List String
  | [] => []
  | a :: rest => pretty level a :: prettyItems level rest

def prettyMembers (level : Nat) : List (String × Json) → List String
  | [] => []
  | (k, a) :: rest => (escape k ++ ": " ++ pretty level a) :: prettyMembers level rest

end

/-! ## Text in log lines -/

mutual

/-- The value as log lines show it, with the kind of every part. -/
def described : Json → String
  | null => "Null"
  | bool true => "Bool(true)"
  | bool false => "Bool(false)"
  | num n => "Number(" ++ numberText n ++ ")"
  | str s => "String(" ++ Text.quote s ++ ")"
  | arr items => "Array [" ++ ", ".intercalate (describedItems items) ++ "]"
  | obj members => "Object \x7b" ++ ", ".intercalate (describedMembers members) ++ "\x7d"

def describedItems : List Json → List String
  | [] => []
  | a :: rest => described a :: describedItems rest

def describedMembers : List (String × Json) → List String
  | [] => []
  | (k, a) :: rest => (Text.quote k ++ ": " ++ described a) :: describedMembers rest

end

/-! ## Looking inside -/

/-- The value of the first member with a key. -/
def member? (key : String) : Json → Option Json
  | obj members => Dict.find? key members
  | _ => none

def asString? : Json → Option String
  | str s => some s
  | _ => none

def asBool? : Json → Option Bool
  | bool b => some b
  | _ => none

/-- The number, if the value is an integer that is not negative. -/
def asNat? : Json → Option Nat
  | num (.int i) => if 0 ≤ i then some i.toNat else none
  | _ => none

def asItems? : Json → Option (List Json)
  | arr items => some items
  | _ => none

def isNull : Json → Bool
  | null => true
  | _ => false

end Json

end LivePage
