import LivePage.Number.Binary64

/-!
# Real literals

The texts that a comparison counts as numbers: a decimal literal with an
optional sign, fraction and exponent, or one of the words for infinity and
not-a-number.
-/

namespace LivePage.Binary64

/-- A sign in front of a text, and the rest of the text. -/
def takeSign : List Char → Bool × List Char
  | '-' :: rest => (true, rest)
  | '+' :: rest => (false, rest)
  | cs => (false, cs)

/-- The exponent part of a literal: nothing, or `e` with an optional sign and
at least one digit up to the end of the text. -/
def exponent? : List Char → Option Int
  | [] => some 0
  | c :: rest =>
      if c = 'e' ∨ c = 'E' then
        let (negative, digits) := takeSign rest
        (Numeral.nat? digits).map fun n => if negative then -(n : Int) else n
      else none

/-- The digits behind a decimal point, and the rest of the text. -/
def takeFraction : List Char → List Char × List Char
  | '.' :: rest => (rest.takeWhile Char.isDigit, rest.dropWhile Char.isDigit)
  | cs => ([], cs)

/-- An unsigned decimal literal; the digits may stand on either side of the
point, but not on none. -/
def unsigned? (negative : Bool) (cs : List Char) : Option Binary64 := do
  let whole := cs.takeWhile Char.isDigit
  let (fraction, rest) := takeFraction (cs.dropWhile Char.isDigit)
  let exponent ← exponent? rest
  if whole.isEmpty && fraction.isEmpty then none
  else some (ofDecimal negative (Numeral.value (whole ++ fraction)) (exponent - fraction.length))

/-- The words that stand for a number, in any case. -/
def word? (negative : Bool) (cs : List Char) : Option Binary64 :=
  let lower := cs.map Char.toLower
  if lower = "inf".toList ∨ lower = "infinity".toList then some (infinite negative)
  else if lower = "nan".toList then some nan
  else none

/-- The number a text writes, if the whole text is a real literal. -/
def ofText? (cs : List Char) : Option Binary64 :=
  let (negative, rest) := takeSign cs
  (word? negative rest).or (unsigned? negative rest)

end LivePage.Binary64
