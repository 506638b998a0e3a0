/-!
# Decimal numerals

Natural numbers as texts of ASCII digits, and the bounded numerals that name a
position in an array.
-/

namespace LivePage.Numeral

/-- The decimal digits of a number, the most significant first. -/
def digits (n : Nat) : List Char :=
  Nat.toDigits 10 n

/-- The decimal numeral of a number. -/
def text (n : Nat) : String :=
  String.ofList (digits n)

/-- The decimal numeral of an integer, with a minus sign if it is negative. -/
def intText : Int → String
  | .ofNat n => text n
  | .negSucc n => "-" ++ text (n + 1)

/-- The value of a digit behind the digits read so far. -/
def push (value : Nat) (c : Char) : Nat :=
  value * 10 + (c.toNat - '0'.toNat)

/-- The number that a run of digits writes. -/
def value (cs : List Char) : Nat :=
  cs.foldl push 0

/-- The number a text writes, if it is one or more digits and nothing else. -/
def nat? (cs : List Char) : Option Nat :=
  if cs ≠ [] ∧ cs.all Char.isDigit then some (value cs) else none

/-- A text without the plus sign that may stand in front of a numeral. -/
def unsigned : List Char → List Char
  | '+' :: rest => rest
  | cs => cs

/-- The position a text names: a numeral below `2 ^ 64`, with or without a plus
sign. -/
def position? (cs : List Char) : Option UInt64 := do
  let n ← nat? (unsigned cs)
  if n < UInt64.size then some n.toUInt64 else none

/-- The numeral padded with zeros to at least `width` digits. -/
def padded (width n : Nat) : String :=
  let ds := digits n
  String.ofList (List.replicate (width - ds.length) '0' ++ ds)

end LivePage.Numeral
