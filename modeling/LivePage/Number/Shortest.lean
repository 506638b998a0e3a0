import LivePage.Number.Binary64

/-!
# Shortest decimals

A double is written with the fewest significant digits that read back as the
same double; among decimals with that many digits the nearest one is taken, and
of two equally near ones the even one.  The search goes over the grids of one
digit, two digits and so on: if a point of a grid reads back, so does one of the
two neighbours of the double on that grid.
-/

namespace LivePage.Binary64

/-- The numbers that round to the double with these units, as bounds in quarter
units; the bounds themselves round to it iff `closed`. -/
structure Interval where
  low : Nat
  middle : Nat
  high : Nat
  closed : Bool

/-- The interval of a positive double.  Below a power of two the doubles lie
half as far apart. -/
def Interval.of (units : Nat) : Interval :=
  let step := Nat.pow 2 (spacing units)
  let significand := units / step
  let narrow := significand = Nat.pow 2 52 ∧ 1 < step
  { low := 4 * units - (if narrow then step else 2 * step)
    middle := 4 * units
    high := 4 * units + 2 * step
    closed := significand % 2 = 0 }

/-- Whether the decimal `digits * 10 ^ exponent` lies in the interval; `scale`
is the number of quarter units in one. -/
def Interval.holds (interval : Interval) (digits : Nat) (exponent : Int) : Bool :=
  let scale := 4 * unitsPerOne
  let (point, unit) :=
    if 0 ≤ exponent then (digits * Nat.pow 10 exponent.toNat * scale, 1)
    else (digits * scale, Nat.pow 10 (-exponent).toNat)
  if interval.closed then interval.low * unit ≤ point && point ≤ interval.high * unit
  else interval.low * unit < point && point < interval.high * unit

/-- The position of the first digit of a positive number `numerator /
denominator`: the `e` with `10 ^ e ≤ numerator / denominator < 10 ^ (e + 1)`,
found from an estimate that may be one too high. -/
def leadingExponent (numerator denominator : Nat) : Int :=
  let atLeast (e : Int) : Bool :=
    if 0 ≤ e then denominator * Nat.pow 10 e.toNat ≤ numerator
    else denominator ≤ numerator * Nat.pow 10 (-e).toNat
  let estimate : Int :=
    (((Numeral.digits numerator).length : Int) - ((Numeral.digits denominator).length : Int))
  if atLeast estimate then estimate else estimate - 1

/-- The two neighbours of `numerator / denominator` on the grid of multiples of
`10 ^ exponent`, as multiples, and whether the lower one is the nearer (a tie
goes to the even one). -/
def gridNeighbours (numerator denominator : Nat) (exponent : Int) : Nat × Nat × Bool :=
  let (top, bottom) :=
    if 0 ≤ exponent then (numerator, denominator * Nat.pow 10 exponent.toNat)
    else (numerator * Nat.pow 10 (-exponent).toNat, denominator)
  let lower := top / bottom
  let rest := 2 * (top % bottom)
  (lower, lower + 1, rest < bottom || (rest == bottom && lower % 2 == 0))

/-- Looks for a decimal that reads back, on the grid with `17 - more` digits and
then on finer ones. -/
def shortestFrom (interval : Interval) (units : Nat) (leading : Int) : Nat → Nat × Int
  | 0 =>
      let exponent := leading - 16
      let (lower, upper, lowerNearer) := gridNeighbours units unitsPerOne exponent
      (if lowerNearer then lower else upper, exponent)
  | more + 1 =>
      let exponent := leading - (16 - (more + 1) : Nat)
      let (lower, upper, lowerNearer) := gridNeighbours units unitsPerOne exponent
      match interval.holds lower exponent, interval.holds upper exponent with
      | true, true => (if lowerNearer then lower else upper, exponent)
      | true, false => (lower, exponent)
      | false, true => (upper, exponent)
      | false, false => shortestFrom interval units leading more

/-- The shortest decimal of a positive double, as digits and the power of ten
they are multiplied by. -/
def shortest (units : Nat) : Nat × Int :=
  shortestFrom (Interval.of units) units (leadingExponent units unitsPerOne) 16

/-- How doubles are written: positional notation with a fraction where the first
digit's exponent is in `-5 .. 15`, otherwise one digit, a point if more follow,
and a signed exponent. -/
def layout (digits : List Char) (leading : Int) : List Char :=
  if -5 ≤ leading ∧ leading ≤ 15 then
    if leading < 0 then
      ['0', '.'] ++ List.replicate (-leading - 1).toNat '0' ++ digits
    else
      let whole := leading.toNat + 1
      if digits.length ≤ whole then
        digits ++ List.replicate (whole - digits.length) '0' ++ ['.', '0']
      else digits.take whole ++ ['.'] ++ digits.drop whole
  else
    let sign := if leading < 0 then '-' else '+'
    let fraction := match digits.drop 1 with
      | [] => []
      | ds => '.' :: ds
    digits.take 1 ++ fraction ++ ['e', sign] ++ Numeral.digits leading.natAbs

/-- The text of a double.  Only finite doubles occur in documents; the others
have the text that stands for a missing value there. -/
def text : Binary64 → String
  | finite negative units =>
      let sign := if negative then "-" else ""
      if units = 0 then sign ++ "0.0"
      else
        let (significand, exponent) := shortest units
        let ds := Numeral.digits significand
        let leading := exponent + (ds.length - 1 : Nat)
        let trailing := (ds.reverse.takeWhile (· == '0')).length
        sign ++ String.ofList (layout (ds.take (ds.length - trailing)) leading)
  | _ => "null"

end LivePage.Binary64
