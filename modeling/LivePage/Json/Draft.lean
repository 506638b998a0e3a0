import LivePage.Json.Value

/-!
# Drafts of documents

A text is read into a draft before anything is known of what it should hold.  A
draft keeps every member, also those whose key comes twice, and records where
the text breaks off.  It records two readings of a string: whether it is well
formed at all, and whether its escapes name characters; a member that is skipped
needs only the first.
-/

namespace LivePage.Json

/-- Why a text gives no value: it breaks the grammar, it ends too soon, or it is
a document of the wrong shape. -/
inductive Fault where
  | malformed
  | unfinished
  | mismatch
deriving DecidableEq, Repr, Inhabited

/-- A text read as far as it follows the grammar. -/
inductive Draft where
  | null
  | bool (value : Bool)
  /-- A number literal; no value if it is too large. -/
  | number (value : Option Number)
  /-- A string: its characters, and where the literal itself breaks off. -/
  | string (value : Except Fault String) (stop : Option Fault)
  /-- The items of an array, and what is wrong behind the last one. -/
  | array (items : List Draft) (stop : Option Fault)
  /-- The members of an object, and what is wrong behind the last one. -/
  | object (members : List (Except Fault String × Draft)) (stop : Option Fault)
  /-- A word or number that breaks off. -/
  | torn (fault : Fault)
  /-- No value begins here. -/
  | missing (fault : Fault)
deriving Inhabited

namespace Draft

def isSpace (c : Char) : Bool :=
  c == ' ' || c == '\n' || c == '\t' || c == '\r'

/-- Drops the white space in front. -/
def skipSpace (cs : List Char) : List Char :=
  cs.dropWhile isSpace

def hexValue? (c : Char) : Option Nat :=
  if c.isDigit then some (c.toNat - '0'.toNat)
  else if 'a' ≤ c ∧ c ≤ 'f' then some (c.toNat - 'a'.toNat + 10)
  else if 'A' ≤ c ∧ c ≤ 'F' then some (c.toNat - 'A'.toNat + 10)
  else none

/-- The code unit of four hexadecimal digits. -/
def codeUnit? (a b c d : Char) : Option Nat := do
  return ((← hexValue? a) * 16 + (← hexValue? b)) * 256 +
    (← hexValue? c) * 16 + (← hexValue? d)

/-- What is wrong where the four digits of an escape should stand: the text ends
within the next four bytes, or they are no digits. -/
def escapeFault (cs : List Char) : Fault :=
  if (cs.take 4).foldl (fun bytes c => bytes + c.utf8Size) 0 < 4 then .unfinished else .malformed

/-- What is wrong where the second escape of a surrogate pair should stand. -/
def pairFault : List Char → Fault
  | [] => .unfinished
  | ['\\'] => .unfinished
  | '\\' :: 'u' :: rest => escapeFault rest
  | _ => .malformed

/-- The character that a backslash and a letter stand for. -/
def shortEscape? (c : Char) : Option Char :=
  if c = '"' ∨ c = '\\' ∨ c = '/' then some c
  else if c = 'b' then some (Char.ofNat 0x08)
  else if c = 'f' then some (Char.ofNat 0x0C)
  else if c = 'n' then some '\n'
  else if c = 'r' then some '\r'
  else if c = 't' then some '\t'
  else none

/-- The text behind the closing quote, whatever the escapes name. -/
def skipString : List Char → Except Fault (List Char)
  | [] => .error .unfinished
  | '"' :: rest => .ok rest
  | ['\\'] => .error .unfinished
  | '\\' :: 'u' :: a :: b :: c :: d :: rest =>
      if (codeUnit? a b c d).isSome then skipString rest else .error .malformed
  | '\\' :: 'u' :: rest => .error (escapeFault rest)
  | '\\' :: c :: rest =>
      if (shortEscape? c).isSome then skipString rest else .error .malformed
  | c :: rest => if c.toNat < 0x20 then .error .malformed else skipString rest

/-- The characters up to the closing quote, in reverse behind `done`.  Escapes
above U+FFFF come as a pair of surrogates, and none may stand alone. -/
def readString (done : List Char) : List Char → Except Fault String
  | [] => .error .unfinished
  | '"' :: _ => .ok (String.ofList done.reverse)
  | ['\\'] => .error .unfinished
  | '\\' :: 'u' :: a :: b :: c :: d :: rest =>
      match codeUnit? a b c d with
      | none => .error .malformed
      | some unit =>
          if 0xD800 ≤ unit ∧ unit ≤ 0xDBFF then
            match rest with
            | '\\' :: 'u' :: a' :: b' :: c' :: d' :: rest' =>
                match codeUnit? a' b' c' d' with
                | none => .error .malformed
                | some low =>
                    if 0xDC00 ≤ low ∧ low ≤ 0xDFFF then
                      let point := 0x10000 + (unit - 0xD800) * 0x400 + (low - 0xDC00)
                      readString (Char.ofNat point :: done) rest'
                    else .error .malformed
            | _ => .error (pairFault rest)
          else if 0xDC00 ≤ unit ∧ unit ≤ 0xDFFF then .error .malformed
          else readString (Char.ofNat unit :: done) rest
  | '\\' :: 'u' :: rest => .error (escapeFault rest)
  | '\\' :: c :: rest =>
      match shortEscape? c with
      | none => .error .malformed
      | some e => readString (e :: done) rest
  | c :: rest => if c.toNat < 0x20 then .error .malformed else readString (c :: done) rest

/-- Reads the rest of a word such as `true`. -/
def readWord (value : Draft) : List Char → List Char → Draft × Option (List Char)
  | [], cs => (value, some cs)
  | _, [] => (.torn .unfinished, none)
  | w :: word, c :: rest =>
      if w = c then readWord value word rest else (.torn .malformed, none)

def readDigits (cs : List Char) : Except Fault (List Char × List Char) :=
  match cs with
  | [] => .error .unfinished
  | c :: _ =>
      if c.isDigit then .ok (cs.takeWhile Char.isDigit, cs.dropWhile Char.isDigit)
      else .error .malformed

def readFraction : List Char → Except Fault (Option (List Char) × List Char)
  | '.' :: rest => do
      let (digits, rest) ← readDigits rest
      return (some digits, rest)
  | cs => .ok (none, cs)

def readExponent (cs : List Char) : Except Fault (Option (Bool × List Char) × List Char) :=
  match cs with
  | c :: rest =>
      if c = 'e' ∨ c = 'E' then do
        let (negative, rest) := match rest with
          | '-' :: rest => (true, rest)
          | '+' :: rest => (false, rest)
          | rest => (false, rest)
        let (digits, rest) ← readDigits rest
        return (some (negative, digits), rest)
      else .ok (none, cs)
  | [] => .ok (none, [])

/-- A number literal behind its sign; a leading zero stands alone. -/
def readLiteral (negative : Bool) (cs : List Char) : Except Fault (Literal × List Char) := do
  let (whole, rest) ← readDigits cs
  if whole.head? = some '0' ∧ 1 < whole.length then
    throw .malformed
  let (fraction, rest) ← readFraction rest
  let (exponent, rest) ← readExponent rest
  return ({ negative, whole, fraction, exponent }, rest)

def readNumber (cs : List Char) : Draft × Option (List Char) :=
  let literal := match cs with
    | '-' :: rest => readLiteral true rest
    | _ => readLiteral false cs
  match literal with
  | .error fault => (.torn fault, none)
  | .ok (literal, rest) => (.number literal.number?, some rest)

/-- Reads a string behind its opening quote. -/
def readQuoted (cs : List Char) : Draft × Option (List Char) :=
  match skipString cs with
  | .error fault => (.string (readString [] cs) (some fault), none)
  | .ok rest => (.string (readString [] cs) none, some rest)

mutual

/-- Reads a value; no rest where the text breaks off.  Every step drops at least
one character, so the length of the text is fuel enough. -/
def readValue : Nat → List Char → Draft × Option (List Char)
  | 0, _ => (.missing .unfinished, none)
  | fuel + 1, cs =>
      match skipSpace cs with
      | [] => (.missing .unfinished, none)
      | c :: rest =>
          if c = '"' then readQuoted rest
          else if c = '[' then
            match skipSpace rest with
            | [] => (.array [] (some .unfinished), none)
            | ']' :: rest => (.array [] none, some rest)
            | rest =>
                let (items, stop, rest) := readItems fuel rest
                (.array items stop, rest)
          else if c = '{' then
            match skipSpace rest with
            | [] => (.object [] (some .unfinished), none)
            | '}' :: rest => (.object [] none, some rest)
            | rest =>
                let (members, stop, rest) := readMembers fuel rest
                (.object members stop, rest)
          else if c = 't' then readWord (.bool true) ['r', 'u', 'e'] rest
          else if c = 'f' then readWord (.bool false) ['a', 'l', 's', 'e'] rest
          else if c = 'n' then readWord .null ['u', 'l', 'l'] rest
          else if c = '-' ∨ c.isDigit then readNumber (c :: rest)
          else (.missing .malformed, none)

/-- Reads the items of an array from the first one on. -/
def readItems : Nat → List Char → List Draft × Option Fault × Option (List Char)
  | 0, _ => ([], some .unfinished, none)
  | fuel + 1, cs =>
      match readValue fuel cs with
      | (item, none) => ([item], none, none)
      | (item, some rest) =>
          match skipSpace rest with
          | [] => ([item], some .unfinished, none)
          | ']' :: rest => ([item], none, some rest)
          | ',' :: rest =>
              let (items, stop, rest) := readItems fuel rest
              (item :: items, stop, rest)
          | _ => ([item], some .malformed, none)

/-- Reads the members of an object from the first key on. -/
def readMembers :
    Nat → List Char → List (Except Fault String × Draft) × Option Fault × Option (List Char)
  | 0, _ => ([], some .unfinished, none)
  | fuel + 1, cs =>
      match skipSpace cs with
      | [] => ([], some .unfinished, none)
      | '"' :: rest =>
          let key := readString [] rest
          match skipString rest with
          | .error fault => ([(key, .missing fault)], none, none)
          | .ok rest =>
              match skipSpace rest with
              | [] => ([(key, .missing .unfinished)], none, none)
              | ':' :: rest =>
                  match readValue fuel rest with
                  | (value, none) => ([(key, value)], none, none)
                  | (value, some rest) =>
                      match skipSpace rest with
                      | [] => ([(key, value)], some .unfinished, none)
                      | '}' :: rest => ([(key, value)], none, some rest)
                      | ',' :: rest =>
                          let (members, stop, rest) := readMembers fuel rest
                          ((key, value) :: members, stop, rest)
                      | _ => ([(key, value)], some .malformed, none)
              | _ => ([(key, .missing .malformed)], none, none)
      | _ => ([], some .malformed, none)

end

/-- Reads a text, and whether anything but white space stands behind it. -/
def ofText (cs : List Char) : Draft × Bool :=
  match readValue (2 * cs.length + 2) cs with
  | (draft, none) => (draft, false)
  | (draft, some rest) => (draft, !(skipSpace rest).isEmpty)

mutual

/-- The value of a draft, members in the order of the text and a key as often as
it comes.  What has no value, which only skipped members may hold, reads as
null. -/
def toJson : Draft → Json
  | null => .null
  | bool b => .bool b
  | number value => (value.map Json.num).getD .null
  | string (.ok s) _ => .str s
  | string (.error _) _ => .null
  | array items _ => .arr (toJsonItems items)
  | object members _ => .obj (toJsonMembers members)
  | torn _ => .null
  | missing _ => .null

def toJsonItems : List Draft → List Json
  | [] => []
  | a :: rest => toJson a :: toJsonItems rest

def toJsonMembers : List (Except Fault String × Draft) → List (String × Json)
  | [] => []
  | (.ok key, a) :: rest => (key, toJson a) :: toJsonMembers rest
  | (.error _, _) :: rest => toJsonMembers rest

end

end Draft

end LivePage.Json
