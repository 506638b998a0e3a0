import LivePage.Number.Binary64

/-!
# Number literals of documents

A literal without fraction and exponent that fits in 64 bits is an integer.
Every other literal is a double: as many of its digits as fit in 64 bits are
read as one significand, which is then scaled by a power of ten.  The significand
and the scaling are rounded one after the other, so a literal with more than
fifteen digits need not become the double nearest to it.
-/

namespace LivePage

/-- A number in a document. -/
inductive Number where
  | int (value : Int)
  | double (value : Binary64)
deriving DecidableEq, Repr, Inhabited

namespace Number

def toBinary64 : Number → Binary64
  | int value => Binary64.ofInt value
  | double value => value

/-- Whether two numbers are written alike: an integer never equals a double, and
the two zeros of doubles are one number. -/
def same : Number → Number → Bool
  | int a, int b => a == b
  | double a, double b => a.same b
  | _, _ => false

end Number

/-- The parts of a number literal; the digit lists hold ASCII digits. -/
structure Literal where
  negative : Bool
  whole : List Char
  fraction : Option (List Char)
  exponent : Option (Bool × List Char)

namespace Literal

def limit : Nat := Nat.pow 2 64 - 1

/-- Reads digits behind a significand for as long as it stays within the limit.
Answers the significand and how many digits were read. -/
def readDigits : Nat → Nat → List Char → Nat × Nat
  | significand, count, [] => (significand, count)
  | significand, count, c :: rest =>
      let next := Numeral.push significand c
      if next ≤ limit then readDigits next (count + 1) rest else (significand, count)

/-- The power of ten with the largest exponent that a double can hold. -/
def topExponent : Nat := 308

/-- Scales a double by a power of ten, in steps of at most `10 ^ 308`; nothing
where the result is too large. -/
def scale (x : Binary64) : Nat → Int → Option Binary64
  | 0, _ => some x
  | steps + 1, exponent =>
      if exponent.natAbs ≤ topExponent then
        let power := Binary64.ofDecimal false 1 exponent.natAbs
        if 0 ≤ exponent then
          let scaled := x.times power
          if scaled.isFinite then some scaled else none
        else some (x.divided power)
      else if x.isZero then some x
      else if 0 ≤ exponent then none
      else scale (x.divided (Binary64.ofDecimal false 1 topExponent)) steps (exponent + topExponent)

/-- The exponent a literal writes behind its digits.  One of more than ten
places cannot matter beyond its sign. -/
def writtenExponent : Option (Bool × List Char) → Int
  | none => 0
  | some (negative, digits) =>
      let n := min (Numeral.value digits) (Nat.pow 2 31 - 1)
      if negative then -(n : Int) else n

/-- The double of a literal, or nothing if it is too large. -/
def double? (literal : Literal) : Option Binary64 :=
  let (whole, read) := readDigits 0 0 literal.whole
  let (significand, more) := readDigits whole 0 (literal.fraction.getD [])
  let exponent := ((literal.whole.length - read : Nat) : Int) - more +
    writtenExponent literal.exponent
  scale (Binary64.ofNat literal.negative significand) 8 exponent

/-- The number of a literal, or nothing if it is too large for a double. -/
def number? (literal : Literal) : Option Number :=
  let n := Numeral.value literal.whole
  let isInteger := literal.fraction.isNone && literal.exponent.isNone
  if isInteger ∧ literal.negative = false ∧ n ≤ limit then some (.int n)
  else if isInteger ∧ literal.negative ∧ 0 < n ∧ n ≤ Nat.pow 2 63 then some (.int (-n))
  else literal.double?.map .double

end Literal

end LivePage
