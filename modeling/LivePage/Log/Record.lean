import LivePage.Log.Level
import LivePage.Number.Numeral
import LivePage.Text.Cut
import LivePage.Text.Quoted

/-!
# Log records

A log record has a level, the part of the program it comes from, a message and
named fields.  On its line the fields follow the message, texts in quotes, and
characters that would steer a terminal are written as escapes.
-/

namespace LivePage

/-- The value of a field: a text, or something that is already shown as one. -/
inductive LogValue where
  | text (s : String)
  | shown (s : String)
deriving DecidableEq, Repr, Inhabited

namespace LogValue

/-- The value without quotes. -/
def plain : LogValue → String
  | text s => s
  | shown s => s

def onLine : LogValue → String
  | text s => Text.quote s
  | shown s => s

end LogValue

/-- One entry of a log. -/
structure LogRecord where
  level : LogLevel
  /-- The part of the program that the record comes from. -/
  target : String
  message : String
  fields : List (String × LogValue) := []
deriving DecidableEq, Repr, Inhabited

namespace LogRecord

/-- A character of a message, as an escape if it would steer a terminal. -/
def escapeChar (c : Char) : List Char :=
  let n := c.toNat
  if n = 0x1B ∨ n = 0x7F then ['\\', 'x'] ++ Text.hexDigits n
  else if n = 0x07 ∨ n = 0x08 ∨ n = 0x0C then ['\\', 'x', '0'] ++ Text.hexDigits n
  else if 0x80 ≤ n ∧ n ≤ 0x9F then ['\\', 'u', '{'] ++ Text.hexDigits n ++ ['}']
  else [c]

def messageText (message : String) : String :=
  String.ofList (message.toList.flatMap escapeChar)

def fieldText (field : String × LogValue) : String :=
  field.1 ++ "=" ++ field.2.onLine

/-- The message and the fields on a line. -/
def text (record : LogRecord) : String :=
  " ".intercalate (messageText record.message :: record.fields.map fieldText)

/-- The level in front of a line's text. -/
def leveled (record : LogRecord) (text : String) : String :=
  record.level.name ++ " " ++ text

/-- The whole line, which a line end in the message breaks. -/
def line (record : LogRecord) : String :=
  record.leveled (record.target ++ ": " ++ record.text)

end LogRecord

/-- A log is a list of records, the first one first. -/
abbrev Log := List LogRecord

/-- A duration given in milliseconds: whole and broken seconds from one second
on. -/
def durationText (ms : Nat) : String :=
  if ms = 0 then "0ns"
  else if ms < 1000 then Numeral.text ms ++ "ms"
  else if ms % 1000 = 0 then Numeral.text (ms / 1000) ++ "s"
  else
    let places := (Numeral.padded 3 (ms % 1000)).toList
    let places := (places.reverse.dropWhile (· = '0')).reverse
    Numeral.text (ms / 1000) ++ "." ++ String.ofList places ++ "s"

end LivePage
