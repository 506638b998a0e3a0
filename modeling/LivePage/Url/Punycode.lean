/-!
# Punycode

Labels of domain names beyond ASCII are written in ASCII: first the label's
ASCII characters, then digits in base 36 that say which characters to insert
where.  The digits are numbers of variable length whose thresholds follow a bias
that adapts to the numbers written so far.
-/

namespace LivePage.Url.Punycode

def base : Nat := 36

def firstPoint : Nat := 128

def firstBias : Nat := 72

/-- The smallest digit that does not end a number, in the digit of weight
position `k`. -/
def threshold (bias k : Nat) : Nat :=
  if k ≤ bias + 1 then 1 else if bias + 26 ≤ k then 26 else k - bias

/-- Divides a delta until it is small enough; answers what it has become and how
often it was divided, in units of the base. -/
def settleDelta (delta k : Nat) : Nat × Nat :=
  if _h : 455 < delta then settleDelta (delta / 35) (k + base) else (delta, k)
termination_by delta
decreasing_by exact Nat.div_lt_self (by omega) (by decide)

/-- The bias after a delta; the first delta counts less, and `count` characters
share the others. -/
def adapt (delta count : Nat) (first : Bool) : Nat :=
  let delta := if first then delta / 700 else delta / 2
  let (delta, k) := settleDelta (delta + delta / count) 0
  k + 36 * delta / (delta + 38)

/-- The digit with a value: letters first. -/
def digit (value : Nat) : Char :=
  if value < 26 then Char.ofNat ('a'.toNat + value) else Char.ofNat ('0'.toNat + (value - 26))

def digitValue? (c : Char) : Option Nat :=
  if 'a' ≤ c ∧ c ≤ 'z' then some (c.toNat - 'a'.toNat)
  else if 'A' ≤ c ∧ c ≤ 'Z' then some (c.toNat - 'A'.toNat)
  else if c.isDigit then some (c.toNat - '0'.toNat + 26)
  else none

/-- The digits of a number.  Every digit divides the rest by at least ten, so the
number itself is fuel enough. -/
def encodeNumber (bias : Nat) : Nat → Nat → Nat → List Char
  | 0, _, n => [digit n]
  | fuel + 1, k, n =>
      let t := threshold bias k
      if n < t then [digit n]
      else digit (t + (n - t) % (base - t)) ::
        encodeNumber bias fuel (k + base) ((n - t) / (base - t))

/-- Where writing stands: the delta so far, the bias, how many characters are
written, and whether none but ASCII ones are. -/
structure Writing where
  delta : Nat
  bias : Nat
  handled : Nat
  first : Bool
  output : List Char

/-- Passes one character of the label while characters equal to `point` are
inserted. -/
def writeChar (point : Nat) (state : Writing) (c : Char) : Writing :=
  if c.toNat < point then { state with delta := state.delta + 1 }
  else if c.toNat = point then
    { delta := 0
      bias := adapt state.delta (state.handled + 1) state.first
      handled := state.handled + 1
      first := false
      output := state.output ++ encodeNumber state.bias state.delta base state.delta }
  else state

/-- Inserts the characters of the label in ascending order of the points still
to come. -/
def writePoints (label : List Char) : List Nat → Nat → Writing → Writing
  | [], _, state => state
  | point :: rest, last, state =>
      let state := { state with delta := state.delta + (point - last) * (state.handled + 1) }
      let state := label.foldl (writeChar point) state
      writePoints label rest (point + 1) { state with delta := state.delta + 1 }

/-- The distinct points of a label beyond ASCII, in ascending order. -/
def points (label : List Char) : List Nat :=
  let beyond := (label.map Char.toNat).filter (firstPoint ≤ ·)
  (beyond.mergeSort (· ≤ ·)).eraseDups

def encode (label : List Char) : List Char :=
  let basic := label.filter (·.toNat < firstPoint)
  let start := if basic.isEmpty then [] else basic ++ ['-']
  (writePoints label (points label) firstPoint
    { delta := 0, bias := firstBias, handled := basic.length, first := true, output := start }).output

/-- Reads one number from the front; the rest is what stands behind its last
digit. -/
def readNumber (bias : Nat) : Nat → Nat → Nat → List Char → Option (Nat × List Char)
  | _, _, _, [] => none
  | k, weight, n, c :: rest => do
      let value ← digitValue? c
      let n := n + value * weight
      let t := threshold bias k
      if value < t then some (n, rest)
      else readNumber bias (k + base) (weight * (base - t)) n rest

/-- Inserts the characters that the digits name; a number reads at least one
digit, so the count of the digits is fuel enough. -/
def insertPoints : Nat → Nat → Nat → Nat → List Char → List Char → Option (List Char)
  | _, _, _, _, output, [] => some output
  | 0, _, _, _, _, _ => none
  | fuel + 1, point, index, bias, output, digits => do
      let (delta, rest) ← readNumber bias base 1 0 digits
      let count := output.length + 1
      let position := index + delta
      let point := point + position / count
      let index := position % count
      if point < 0x110000 ∧ ¬ (0xD800 ≤ point ∧ point ≤ 0xDFFF) then
        insertPoints fuel point (index + 1) (adapt delta count (output.all (·.toNat < firstPoint)))
          (output.take index ++ Char.ofNat point :: output.drop index) rest
      else none

/-- The label that an ASCII form stands for: the characters in front of the last
hyphen are kept, the digits behind it inserted. -/
def decode? (cs : List Char) : Option (List Char) :=
  let digits := (cs.reverse.takeWhile (· ≠ '-')).reverse
  let basic := cs.take (cs.length - digits.length - 1)
  if cs.all (·.toNat < firstPoint) then
    insertPoints digits.length firstPoint 0 firstBias basic digits
  else none

end LivePage.Url.Punycode
