import LivePage.Text.Hidden

/-!
# Quoted text

The form in which log lines show a text that must be told from its
surroundings: in double quotes, with the quote, the backslash and every
character that would not show on a line written as an escape.
-/

namespace LivePage.Text

/-- The lower case hexadecimal digits of a number, without padding. -/
def hexDigits (n : Nat) : List Char :=
  Nat.toDigits 16 n

def quoteChar (c : Char) : List Char :=
  if c = '"' then ['\\', '"']
  else if c = '\\' then ['\\', '\\']
  else if c = '\n' then ['\\', 'n']
  else if c = '\r' then ['\\', 'r']
  else if c = '\t' then ['\\', 't']
  else if c.toNat = 0 then ['\\', '0']
  else if isHidden c then ['\\', 'u', '{'] ++ hexDigits c.toNat ++ ['}']
  else [c]

def quote (s : String) : String :=
  String.ofList ('"' :: s.toList.flatMap quoteChar ++ ['"'])

/-- An optional value in a log line. -/
def showOption (show' : α → String) : Option α → String
  | none => "None"
  | some a => "Some(" ++ show' a ++ ")"

/-- A list of values in a log line. -/
def showList (show' : α → String) (as : List α) : String :=
  "[" ++ ", ".intercalate (as.map show') ++ "]"

end LivePage.Text
