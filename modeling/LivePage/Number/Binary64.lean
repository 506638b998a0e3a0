import LivePage.Number.Numeral

/-!
# Double precision numbers

A finite double is a whole number of units of `2 ^ -1074`, with a sign of its
own so that there are two zeros.  On that scale comparison is comparison of
integers, and rounding to the nearest double is one integer division.  No
operation of the machine's floating point is used.
-/

namespace LivePage

/-- A double precision number; `finite` counts units of `2 ^ -1074`. -/
inductive Binary64 where
  | nan
  | infinite (negative : Bool)
  | finite (negative : Bool) (units : Nat)
deriving DecidableEq, Repr, Inhabited

namespace Binary64

/-- How many units make one: `2 ^ 1074`. -/
def unitsPerOne : Nat := Nat.pow 2 1074

/-- The first number of units that is too large for a finite double. -/
def overflow : Nat := Nat.pow 2 (1024 + 1074)

/-- The exponent of the spacing between the doubles around `units`: a double has
53 significant bits. -/
def spacing (units : Nat) : Nat :=
  units.log2 - 52

/-- The quotient rounded to the nearest integer, a half to the even one. -/
def roundedQuotient (numerator denominator : Nat) : Nat :=
  let quotient := numerator / denominator
  let rest := 2 * (numerator % denominator)
  if denominator < rest ∨ (rest = denominator ∧ quotient % 2 = 1) then quotient + 1
  else quotient

/-- The number of units of the double nearest to a quotient of units. -/
def nearest (numerator denominator : Nat) : Nat :=
  let step := Nat.pow 2 (spacing (numerator / denominator))
  roundedQuotient numerator (denominator * step) * step

/-- The double with a sign and a number of units; too many units are infinite. -/
def ofUnits (negative : Bool) (units : Nat) : Binary64 :=
  if overflow ≤ units then infinite negative else finite negative units

/-- The double nearest to a natural number. -/
def ofNat (negative : Bool) (n : Nat) : Binary64 :=
  ofUnits negative (nearest (n * unitsPerOne) 1)

/-- The double nearest to an integer. -/
def ofInt (i : Int) : Binary64 :=
  ofNat (i < 0) i.natAbs

/-- The double nearest to `significand * 10 ^ exponent`.  Beyond 400 places
either way the answer is known without computing it. -/
def ofDecimal (negative : Bool) (significand : Nat) (exponent : Int) : Binary64 :=
  if significand = 0 then finite negative 0
  else
    let leading := exponent + (Numeral.digits significand).length
    if 400 < leading then infinite negative
    else if leading < -400 then finite negative 0
    else if 0 ≤ exponent then
      ofUnits negative (nearest (significand * Nat.pow 10 exponent.toNat * unitsPerOne) 1)
    else ofUnits negative (nearest (significand * unitsPerOne) (Nat.pow 10 (-exponent).toNat))

/-- The value of a finite double in units. -/
def signedUnits : Bool → Nat → Int
  | false, units => units
  | true, units => -units

/-- Whether two doubles are the same number: the zeros are, and not-a-number
equals nothing. -/
def same : Binary64 → Binary64 → Bool
  | infinite a, infinite b => a == b
  | finite a m, finite b n => signedUnits a m == signedUnits b n
  | _, _ => false

/-- Whether the first double is the smaller number. -/
def below : Binary64 → Binary64 → Bool
  | infinite true, infinite false => true
  | infinite true, finite _ _ => true
  | finite _ _, infinite false => true
  | finite a m, finite b n => signedUnits a m < signedUnits b n
  | _, _ => false

/-- The product of two finite doubles, rounded. -/
def times : Binary64 → Binary64 → Binary64
  | finite a m, finite b n => ofUnits (a != b) (nearest (m * n) unitsPerOne)
  | _, _ => nan

/-- The quotient of two finite doubles, rounded; the divisor is not zero. -/
def divided : Binary64 → Binary64 → Binary64
  | finite a m, finite b n => ofUnits (a != b) (nearest (m * unitsPerOne) n)
  | _, _ => nan

def isZero : Binary64 → Bool
  | finite _ 0 => true
  | _ => false

/-- Whether a double is a number other than an infinity. -/
def isFinite : Binary64 → Bool
  | finite _ _ => true
  | _ => false

end Binary64

end LivePage
