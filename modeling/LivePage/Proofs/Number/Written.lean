import Mathlib.Algebra.Group.Nat.Defs
import LivePage.Number.Literal
import LivePage.Number.Real
import LivePage.Number.Shortest
import LivePage.Json.Value
import LivePage.Proofs.Number.Numeral
import LivePage.Proofs.Text.Blank

/-!
# Numbers that are written

The text of every number is a real literal, and not the word for not-a-number.  For
integers that is the form of numerals.  For doubles it rests on the search for the shortest
decimal: its grids begin at the first digit of the double, so what it finds is never zero,
and every layout has a digit in front.
-/

namespace LivePage

namespace Binary64

theorem ofUnits_ne_nan (negative : Bool) (units : Nat) : ofUnits negative units ≠ nan := by
  rw [ofUnits]
  split
  · exact nofun
  · exact nofun

/-- A decimal literal is never not-a-number. -/
theorem ofDecimal_ne_nan (negative : Bool) (significand : Nat) (exponent : Int) :
    ofDecimal negative significand exponent ≠ nan := by
  rw [ofDecimal]
  dsimp only
  split
  · exact nofun
  · split
    · exact nofun
    · split
      · exact nofun
      · split
        · exact ofUnits_ne_nan negative _
        · exact ofUnits_ne_nan negative _

/-! ## Literals -/

theorem exists_cons_of_digits {digits : List Char} (hne : digits ≠ [])
    (hdigits : ∀ c ∈ digits, c.isDigit = true) :
    ∃ c rest, digits = c :: rest ∧ c.isDigit = true := by
  obtain ⟨c, rest, rfl⟩ := List.exists_cons_of_ne_nil hne
  exact ⟨c, rest, rfl, hdigits c List.mem_cons_self⟩

/-- A text that begins with a digit has no sign in front. -/
theorem takeSign_of_isDigit {c : Char} (hc : c.isDigit = true) (cs : List Char) :
    takeSign (c :: cs) = (false, c :: cs) := by
  rw [takeSign.eq_def]
  split
  · next heq => exact absurd hc ((List.cons.inj heq).1 ▸ by decide)
  · next heq => exact absurd hc ((List.cons.inj heq).1 ▸ by decide)
  · rfl

/-- The words for numbers begin with letters. -/
theorem word?_cons (negative : Bool) {c : Char} (cs : List Char) (hi : c.toLower ≠ 'i')
    (hn : c.toLower ≠ 'n') : word? negative (c :: cs) = none := by
  rw [word?, if_neg, if_neg]
  · exact fun heq => hn (List.cons.inj heq).1
  · rintro (heq | heq)
    · exact hi (List.cons.inj heq).1
    · exact hi (List.cons.inj heq).1

theorem toLower_of_isDigit {c : Char} (hc : c.isDigit = true) : c.toLower = c := by
  rw [Char.isDigit, Bool.and_eq_true, decide_eq_true_iff, decide_eq_true_iff] at hc
  exact dif_neg fun hupper => absurd (UInt32.le_trans hupper.1 hc.2) (by decide)

theorem word?_of_isDigit (negative : Bool) {c : Char} (hc : c.isDigit = true) (cs : List Char) :
    word? negative (c :: cs) = none := by
  apply word?_cons
  · rw [toLower_of_isDigit hc]
    exact fun heq => absurd hc (heq ▸ by decide)
  · rw [toLower_of_isDigit hc]
    exact fun heq => absurd hc (heq ▸ by decide)

/-- An exponent part holds nothing that could belong to the digits before it. -/
theorem span_of_exponent? {rest : List Char} {e : Int} (hrest : exponent? rest = some e)
    {digits : List Char} (hdigits : ∀ c ∈ digits, c.isDigit = true) :
    (digits ++ rest).takeWhile Char.isDigit = digits ∧
      (digits ++ rest).dropWhile Char.isDigit = rest ∧ takeFraction rest = ([], rest) := by
  rw [List.takeWhile_append_of_pos hdigits, List.dropWhile_append_of_pos hdigits]
  cases rest with
  | nil => exact ⟨List.append_nil _, rfl, rfl⟩
  | cons c rest =>
      rw [exponent?] at hrest
      split at hrest
      · next he => rcases he with rfl | rfl <;> exact ⟨by simp, rfl, rfl⟩
      · cases hrest

/-- Digits, and what an exponent part says behind them. -/
theorem unsigned?_whole (negative : Bool) {whole rest : List Char} (hne : whole ≠ [])
    (hwhole : ∀ c ∈ whole, c.isDigit = true) {e : Int} (hrest : exponent? rest = some e) :
    ∃ x, unsigned? negative (whole ++ rest) = some x ∧ x ≠ nan := by
  obtain ⟨htake, hdrop, hfraction⟩ := span_of_exponent? hrest hwhole
  refine ⟨_, ?_, ofDecimal_ne_nan negative (Numeral.value (whole ++ [])) (e - 0)⟩
  simp [unsigned?, htake, hdrop, hfraction, hrest, hne]

/-- Digits with a fraction, and what an exponent part says behind them. -/
theorem unsigned?_fraction (negative : Bool) {whole fraction rest : List Char} (hne : whole ≠ [])
    (hwhole : ∀ c ∈ whole, c.isDigit = true) (hfraction : ∀ c ∈ fraction, c.isDigit = true)
    {e : Int} (hrest : exponent? rest = some e) :
    ∃ x, unsigned? negative (whole ++ '.' :: (fraction ++ rest)) = some x ∧ x ≠ nan := by
  obtain ⟨htake, hdrop, -⟩ := span_of_exponent? hrest hfraction
  have hpoint : takeFraction ('.' :: (fraction ++ rest)) = (fraction, rest) := by
    rw [takeFraction, htake, hdrop]
  refine ⟨_, ?_, ofDecimal_ne_nan negative (Numeral.value (whole ++ fraction))
    (e - fraction.length)⟩
  simp [unsigned?, List.takeWhile_append_of_pos hwhole, List.dropWhile_append_of_pos hwhole,
    hpoint, hrest, hne]

/-- Digits with a fraction up to the end of the text. -/
theorem unsigned?_point (negative : Bool) {whole fraction : List Char} (hne : whole ≠ [])
    (hwhole : ∀ c ∈ whole, c.isDigit = true) (hfraction : ∀ c ∈ fraction, c.isDigit = true) :
    ∃ x, unsigned? negative (whole ++ '.' :: fraction) = some x ∧ x ≠ nan := by
  have hnothing : exponent? [] = some 0 := rfl
  simpa using unsigned?_fraction negative hne hwhole hfraction hnothing

/-- A signed run of digits behind the letter is an exponent part. -/
theorem exponent?_of_digits {sign : Char} (hsign : sign = '-' ∨ sign = '+') {digits : List Char}
    (hne : digits ≠ []) (hdigits : ∀ c ∈ digits, c.isDigit = true) :
    ∃ e, exponent? ('e' :: sign :: digits) = some e := by
  have hn := Numeral.nat?_eq_some_iff.2 ⟨hne, hdigits, rfl⟩
  rw [exponent?, if_pos (.inl rfl)]
  rcases hsign with rfl | rfl
  · simp [takeSign, hn]
  · simp [takeSign, hn]

theorem isDigit_of_mem_digits {n : Nat} {c : Char} (hc : c ∈ Numeral.digits n) :
    c.isDigit = true :=
  Nat.isDigit_of_mem_toDigits (by decide) (by decide) hc

theorem isDigit_of_mem_zeros {n : Nat} {c : Char} (hc : c ∈ List.replicate n '0') :
    c.isDigit = true := by
  rw [List.eq_of_mem_replicate hc]
  rfl

/-- Digits in any layout are an unsigned literal. -/
theorem unsigned?_layout (negative : Bool) {digits : List Char} (hne : digits ≠ [])
    (hdigits : ∀ c ∈ digits, c.isDigit = true) (leading : Int) :
    ∃ x, unsigned? negative (layout digits leading) = some x ∧ x ≠ nan := by
  obtain ⟨first, others, rfl, hfirst⟩ := exists_cons_of_digits hne hdigits
  have hzero : ∀ c ∈ ['0'], c.isDigit = true := List.forall_mem_singleton.2 rfl
  rw [layout]
  dsimp only
  split
  · split
    · have hfraction : ∀ c ∈ List.replicate (-leading - 1).toNat '0' ++ first :: others,
          c.isDigit = true :=
        List.forall_mem_append.2 ⟨fun c hc => isDigit_of_mem_zeros hc, hdigits⟩
      simpa using unsigned?_point negative (List.cons_ne_nil '0' []) hzero hfraction
    · split
      · have hwhole : ∀ c ∈ first :: others ++
            List.replicate (leading.toNat + 1 - (first :: others).length) '0',
            c.isDigit = true :=
          List.forall_mem_append.2 ⟨hdigits, fun c hc => isDigit_of_mem_zeros hc⟩
        simpa using unsigned?_point negative (by simp) hwhole hzero
      · have hwhole : ∀ c ∈ (first :: others).take (leading.toNat + 1), c.isDigit = true :=
          fun c hc => hdigits c (List.mem_of_mem_take hc)
        have hfraction : ∀ c ∈ (first :: others).drop (leading.toNat + 1), c.isDigit = true :=
          fun c hc => hdigits c (List.mem_of_mem_drop hc)
        simpa using unsigned?_point negative (by simp) hwhole hfraction
  · have hsign : (if leading < 0 then '-' else '+') = '-' ∨
        (if leading < 0 then '-' else '+') = '+' := by
      split <;> simp
    have hplaces : Numeral.digits leading.natAbs ≠ [] := Nat.toDigits_ne_nil
    obtain ⟨e, he⟩ := exponent?_of_digits hsign hplaces fun c hc => isDigit_of_mem_digits hc
    cases others with
    | nil => simpa [Numeral.digits] using unsigned?_whole negative hne hdigits he
    | cons second others =>
        have hwhole : ∀ c ∈ [first], c.isDigit = true := List.forall_mem_singleton.2 hfirst
        have hfraction : ∀ c ∈ second :: others, c.isDigit = true :=
          fun c hc => hdigits c (List.mem_cons_of_mem first hc)
        simpa [Numeral.digits] using
          unsigned?_fraction negative (List.cons_ne_nil first []) hwhole hfraction he

/-- Digits in any layout begin with a digit. -/
theorem exists_cons_layout {digits : List Char} (hne : digits ≠ [])
    (hdigits : ∀ c ∈ digits, c.isDigit = true) (leading : Int) :
    ∃ c rest, layout digits leading = c :: rest ∧ c.isDigit = true := by
  obtain ⟨first, others, rfl, hfirst⟩ := exists_cons_of_digits hne hdigits
  rw [layout]
  dsimp only
  split
  · split
    · exact ⟨'0', _, rfl, rfl⟩
    · split
      · exact ⟨first, _, rfl, hfirst⟩
      · exact ⟨first, _, rfl, hfirst⟩
  · exact ⟨first, _, rfl, hfirst⟩

/-- Digits in any layout hold no blank character. -/
theorem isBlank_of_mem_layout {digits : List Char} (hdigits : ∀ c ∈ digits, c.isDigit = true)
    (leading : Int) : ∀ c ∈ layout digits leading, Text.isBlank c = false := by
  have hblank : ∀ c ∈ digits, Text.isBlank c = false :=
    fun c hc => Text.isBlank_of_isDigit (hdigits c hc)
  have hzeros (n : Nat) : ∀ c ∈ List.replicate n '0', Text.isBlank c = false :=
    fun c hc => Text.isBlank_of_isDigit (isDigit_of_mem_zeros hc)
  have htake (n : Nat) : ∀ c ∈ digits.take n, Text.isBlank c = false :=
    fun c hc => hblank c (List.mem_of_mem_take hc)
  have hdrop (n : Nat) : ∀ c ∈ digits.drop n, Text.isBlank c = false :=
    fun c hc => hblank c (List.mem_of_mem_drop hc)
  have hpair {a b : Char} (ha : Text.isBlank a = false) (hb : Text.isBlank b = false) :
      ∀ c ∈ [a, b], Text.isBlank c = false :=
    List.forall_mem_cons.2 ⟨ha, List.forall_mem_singleton.2 hb⟩
  rw [layout]
  dsimp only
  split
  · split
    · simp only [List.forall_mem_append]
      exact ⟨⟨hpair rfl rfl, hzeros _⟩, hblank⟩
    · split
      · simp only [List.forall_mem_append]
        exact ⟨⟨hblank, hzeros _⟩, hpair rfl rfl⟩
      · simp only [List.forall_mem_append]
        exact ⟨⟨htake _, List.forall_mem_singleton.2 rfl⟩, hdrop _⟩
  · simp only [List.forall_mem_append]
    refine ⟨⟨⟨htake 1, ?_⟩, hpair rfl ?_⟩,
      fun c hc => Text.isBlank_of_isDigit (isDigit_of_mem_digits hc)⟩
    · split
      · exact fun c hc => nomatch hc
      · next heq => exact List.forall_mem_cons.2 ⟨rfl, hdrop 1⟩
    · split <;> rfl

/-- An unsigned literal that begins with a digit is a real literal, with a minus sign or
without. -/
theorem ofText?_of_unsigned? {cs : List Char}
    (hliteral : ∀ negative, ∃ x, unsigned? negative cs = some x ∧ x ≠ nan)
    (hfirst : ∃ c rest, cs = c :: rest ∧ c.isDigit = true) :
    (∃ x, ofText? cs = some x ∧ x ≠ nan) ∧ ∃ x, ofText? ('-' :: cs) = some x ∧ x ≠ nan := by
  obtain ⟨c, rest, rfl, hc⟩ := hfirst
  have hword (negative : Bool) : word? negative (c :: rest) = none :=
    word?_of_isDigit negative hc rest
  constructor
  · obtain ⟨x, hx, hnan⟩ := hliteral false
    exact ⟨x, by rw [ofText?, takeSign_of_isDigit hc]; simpa [hword] using hx, hnan⟩
  · obtain ⟨x, hx, hnan⟩ := hliteral true
    exact ⟨x, by rw [ofText?, takeSign]; simpa [hword] using hx, hnan⟩

/-! ## Shortest decimals -/

/-- The number `numerator / denominator` is at least `10 ^ e`. -/
def AtLeast (numerator denominator : Nat) (e : Int) : Prop :=
  denominator * 10 ^ e.toNat ≤ numerator * 10 ^ (-e).toNat

theorem AtLeast.mono {numerator denominator : Nat} {e leading : Int}
    (hleading : AtLeast numerator denominator leading) (hle : e ≤ leading) :
    AtLeast numerator denominator e := by
  have hup : e.toNat ≤ leading.toNat := by omega
  have hdown : (-leading).toNat ≤ (-e).toNat := by omega
  calc
    denominator * 10 ^ e.toNat ≤ denominator * 10 ^ leading.toNat :=
      Nat.mul_le_mul_left _ (Nat.pow_le_pow_right (by decide) hup)
    _ ≤ numerator * 10 ^ (-leading).toNat := hleading
    _ ≤ numerator * 10 ^ (-e).toNat :=
      Nat.mul_le_mul_left _ (Nat.pow_le_pow_right (by decide) hdown)

/-- A number has as many digits as its size asks for. -/
theorem lt_pow_length_digits (n : Nat) : n < 10 ^ (Numeral.digits n).length :=
  (Nat.length_toDigits_le_iff (by decide) Nat.length_toDigits_pos).1 (Nat.le_refl _)

theorem pow_length_digits_le {n : Nat} (hn : 0 < n) :
    10 ^ ((Numeral.digits n).length - 1) ≤ n := by
  by_cases hone : (Numeral.digits n).length - 1 = 0
  · rw [hone]
    exact hn
  · have hfewer : ¬ (Nat.toDigits 10 n).length ≤ (Numeral.digits n).length - 1 := by
      change ¬ (Numeral.digits n).length ≤ _
      omega
    exact Nat.le_of_not_lt fun hlt => hfewer
      ((Nat.length_toDigits_le_iff (by decide) (Nat.pos_of_ne_zero hone)).2 hlt)

/-- How the search for the first digit compares. -/
theorem atLeast_iff (numerator denominator : Nat) (e : Int) :
    (if 0 ≤ e then decide (denominator * Nat.pow 10 e.toNat ≤ numerator)
      else decide (denominator ≤ numerator * Nat.pow 10 (-e).toNat)) = true ↔
      AtLeast numerator denominator e := by
  rw [AtLeast]
  split
  · next hsign =>
      have hzero : (-e).toNat = 0 := by omega
      rw [hzero, Nat.pow_zero, Nat.mul_one, decide_eq_true_iff]
      rfl
  · next hsign =>
      have hzero : e.toNat = 0 := by omega
      rw [hzero, Nat.pow_zero, Nat.mul_one, decide_eq_true_iff]
      rfl

/-- The exponent of the first digit is not too large. -/
theorem atLeast_leadingExponent {numerator : Nat} (hpos : 0 < numerator) (denominator : Nat) :
    AtLeast numerator denominator (leadingExponent numerator denominator) := by
  have hlow := pow_length_digits_le hpos
  have hhigh := lt_pow_length_digits denominator
  have hsome : 0 < (Numeral.digits numerator).length := Nat.length_toDigits_pos
  rw [leadingExponent]
  generalize (Numeral.digits numerator).length = above at *
  generalize (Numeral.digits denominator).length = below at *
  dsimp only
  by_cases hestimate : AtLeast numerator denominator ((above : Int) - below)
  · rwa [if_pos ((atLeast_iff numerator denominator _).2 hestimate)]
  · rw [if_neg fun hholds => hestimate ((atLeast_iff numerator denominator _).1 hholds)]
    -- one place lower the estimate is right, whatever the digits are
    have hsum : below + ((above : Int) - below - 1).toNat =
        above - 1 + (-((above : Int) - below - 1)).toNat := by omega
    calc
      denominator * 10 ^ ((above : Int) - below - 1).toNat
        ≤ 10 ^ below * 10 ^ ((above : Int) - below - 1).toNat :=
          Nat.mul_le_mul_right _ (Nat.le_of_lt hhigh)
      _ = 10 ^ (above - 1) * 10 ^ (-((above : Int) - below - 1)).toNat := by
          rw [← Nat.pow_add, ← Nat.pow_add, hsum]
      _ ≤ numerator * 10 ^ (-((above : Int) - below - 1)).toNat := Nat.mul_le_mul_right _ hlow

/-- On a grid that is no coarser than the first digit the lower neighbour is not zero. -/
theorem gridNeighbours_pos {numerator denominator : Nat} (hpos : 0 < denominator) {e : Int}
    (hatLeast : AtLeast numerator denominator e) :
    0 < (gridNeighbours numerator denominator e).1 ∧
      0 < (gridNeighbours numerator denominator e).2.1 := by
  have hpower (n : Nat) : 0 < Nat.pow 10 n := Nat.pow_pos (by decide)
  rw [AtLeast] at hatLeast
  rw [gridNeighbours]
  split
  next top bottom hgrid =>
    refine ⟨?_, Nat.succ_pos _⟩
    apply Nat.div_pos
    · split at hgrid
      · next hsign =>
          obtain ⟨rfl, rfl⟩ := Prod.mk.inj hgrid
          have hzero : (-e).toNat = 0 := by omega
          rwa [hzero, Nat.pow_zero, Nat.mul_one] at hatLeast
      · next hsign =>
          obtain ⟨rfl, rfl⟩ := Prod.mk.inj hgrid
          have hzero : e.toNat = 0 := by omega
          rwa [hzero, Nat.pow_zero, Nat.mul_one] at hatLeast
    · split at hgrid
      · obtain ⟨-, rfl⟩ := Prod.mk.inj hgrid
        exact Nat.mul_pos hpos (hpower _)
      · obtain ⟨-, rfl⟩ := Prod.mk.inj hgrid
        exact hpos

theorem unitsPerOne_pos : 0 < unitsPerOne := by
  unfold unitsPerOne
  generalize 1074 = places
  exact Nat.pow_pos (by decide)

/-- What the search finds is not zero. -/
theorem shortestFrom_pos (interval : Interval) {units : Nat} {leading : Int}
    (hleading : AtLeast units unitsPerOne leading) (more : Nat) :
    0 < (shortestFrom interval units leading more).1 := by
  induction more with
  | zero =>
      have hgrid : leading - 16 ≤ leading := Int.sub_le_self leading (by decide)
      have hneighbours := gridNeighbours_pos unitsPerOne_pos (hleading.mono hgrid)
      rw [shortestFrom]
      dsimp only
      split
      · exact hneighbours.1
      · exact hneighbours.2
  | succ more ih =>
      have hgrid : leading - (16 - (more + 1) : Nat) ≤ leading :=
        Int.sub_le_self leading (Int.natCast_nonneg _)
      have hneighbours := gridNeighbours_pos unitsPerOne_pos (hleading.mono hgrid)
      rw [shortestFrom]
      dsimp only
      split
      · split
        · exact hneighbours.1
        · exact hneighbours.2
      · exact hneighbours.1
      · exact hneighbours.2
      · exact ih

theorem shortest_pos {units : Nat} (hunits : 0 < units) : 0 < (shortest units).1 :=
  shortestFrom_pos _ (atLeast_leadingExponent hunits unitsPerOne) 16

/-- A number with nothing but zeros for digits is zero. -/
theorem eq_zero_of_digits {n : Nat} (hzeros : ∀ c ∈ Numeral.digits n, c = '0') : n = 0 := by
  have hvalue (cs : List Char) (hcs : ∀ c ∈ cs, c = '0') : Numeral.value cs = 0 := by
    rw [List.eq_replicate_of_mem hcs, Numeral.value]
    generalize cs.length = count
    induction count with
    | zero => rfl
    | succ count ih => exact ih
  have hread : Numeral.value (Numeral.digits n) = n := by
    rw [Numeral.value_eq_ofDigitChars]
    exact Nat.ofDigitChars_ten_toDigits
  rw [← hread]
  exact hvalue _ hzeros

/-- Something is left of the digits of a positive number without the zeros behind. -/
theorem length_zeros_lt {n : Nat} (hn : 0 < n) :
    ((Numeral.digits n).reverse.takeWhile (· == '0')).length < (Numeral.digits n).length := by
  apply Nat.lt_of_not_le
  intro hall
  refine absurd (eq_zero_of_digits fun c hc => ?_) (Nat.ne_of_gt hn)
  have hsame := (List.takeWhile_prefix (· == '0')).eq_of_length_le
    (by rwa [List.length_reverse] : (Numeral.digits n).reverse.length ≤ _)
  have hzero := List.mem_takeWhile_imp (hsame ▸ List.mem_reverse.2 hc)
  exact eq_of_beq hzero

/-! ## Texts of numbers -/

/-- A numeral is a real literal, with a minus sign or without. -/
theorem ofText?_digits (n : Nat) :
    (∃ x, ofText? (Numeral.digits n) = some x ∧ x ≠ nan) ∧
      ∃ x, ofText? ('-' :: Numeral.digits n) = some x ∧ x ≠ nan := by
  have hne : Numeral.digits n ≠ [] := Nat.toDigits_ne_nil
  have hdigits : ∀ c ∈ Numeral.digits n, c.isDigit = true := fun c hc => isDigit_of_mem_digits hc
  have hnothing : exponent? [] = some 0 := rfl
  apply ofText?_of_unsigned?
  · intro negative
    simpa using unsigned?_whole negative hne hdigits hnothing
  · exact exists_cons_of_digits hne hdigits

/-- The digits of a positive number without the zeros behind: some, and nothing but
digits. -/
theorem significant_digits {n : Nat} (hn : 0 < n) (count : Nat)
    (hcount : count = ((Numeral.digits n).reverse.takeWhile (· == '0')).length) :
    (Numeral.digits n).take ((Numeral.digits n).length - count) ≠ [] ∧
      ∀ c ∈ (Numeral.digits n).take ((Numeral.digits n).length - count), c.isDigit = true := by
  have hfewer := length_zeros_lt hn
  refine ⟨List.ne_nil_of_length_pos ?_, fun c hc => isDigit_of_mem_digits (List.mem_of_mem_take hc)⟩
  rw [List.length_take]
  omega

/-- The text of a finite double is a real literal. -/
theorem ofText?_text {x : Binary64} (hfinite : x.isFinite = true) :
    ∃ y, ofText? x.text.toList = some y ∧ y ≠ nan := by
  cases x with
  | nan => cases hfinite
  | infinite negative => cases hfinite
  | finite negative units =>
      have hsigned {cs : List Char}
          (hliteral : ∀ negative, ∃ y, unsigned? negative cs = some y ∧ y ≠ nan)
          (hfirst : ∃ c rest, cs = c :: rest ∧ c.isDigit = true) :
          ∃ y, ofText? ((if negative then "-" else "") ++ String.ofList cs).toList = some y ∧
            y ≠ nan := by
        obtain ⟨hpositive, hnegative⟩ := ofText?_of_unsigned? hliteral hfirst
        cases negative with
        | false => simpa using hpositive
        | true => simpa using hnegative
      rw [text]
      dsimp only
      split
      · have hdigits : ∀ c ∈ ['0'], c.isDigit = true := List.forall_mem_singleton.2 rfl
        exact hsigned
          (fun negative => unsigned?_point negative (List.cons_ne_nil '0' []) hdigits hdigits)
          ⟨'0', _, rfl, rfl⟩
      · next hunits =>
          obtain ⟨hne, hdigits⟩ :=
            significant_digits (shortest_pos (Nat.pos_of_ne_zero hunits)) _ rfl
          exact hsigned (fun negative => unsigned?_layout negative hne hdigits _)
            (exists_cons_layout hne hdigits _)

/-- The text of a finite double holds no blank character. -/
theorem isBlank_of_mem_text {x : Binary64} (hfinite : x.isFinite = true) {c : Char}
    (hc : c ∈ x.text.toList) : Text.isBlank c = false := by
  cases x with
  | nan => cases hfinite
  | infinite negative => cases hfinite
  | finite negative units =>
      have hsigned {cs : List Char} (hcs : ∀ c ∈ cs, Text.isBlank c = false) :
          ∀ c ∈ ((if negative then "-" else "") ++ String.ofList cs).toList,
            Text.isBlank c = false := by
        rw [String.toList_append, String.toList_ofList]
        refine List.forall_mem_append.2 ⟨?_, hcs⟩
        split
        · exact List.forall_mem_singleton.2 rfl
        · exact fun c hc => nomatch hc
      rw [text] at hc
      dsimp only at hc
      split at hc
      · have hzero : ∀ c ∈ ['0', '.', '0'], Text.isBlank c = false := by simp [Text.isBlank]
        exact hsigned hzero c hc
      · next hunits =>
          obtain ⟨-, hdigits⟩ :=
            significant_digits (shortest_pos (Nat.pos_of_ne_zero hunits)) _ rfl
          exact hsigned (isBlank_of_mem_layout hdigits _) c hc

end Binary64

/-- Whether a number is one that documents can hold: integers are, and finite doubles. -/
def Number.isFinite : Number → Bool
  | int _ => true
  | double x => x.isFinite

/-- The numeral of an integer is a real literal without blank characters. -/
theorem Numeral.ofText?_intText (i : Int) :
    (∃ x, Binary64.ofText? (intText i).toList = some x ∧ x ≠ .nan) ∧
      ∀ c ∈ (intText i).toList, Text.isBlank c = false := by
  have hdigits (n : Nat) : ∀ c ∈ digits n, Text.isBlank c = false :=
    fun c hc => Text.isBlank_of_isDigit (Binary64.isDigit_of_mem_digits hc)
  cases i with
  | ofNat n =>
      rw [intText, text, String.toList_ofList]
      exact ⟨(Binary64.ofText?_digits n).1, hdigits n⟩
  | negSucc n =>
      have htext : (text (n + 1)).toList = digits (n + 1) := String.toList_ofList
      rw [intText, String.toList_append, htext]
      exact ⟨(Binary64.ofText?_digits (n + 1)).2, List.forall_mem_cons.2 ⟨rfl, hdigits (n + 1)⟩⟩

/-- The text of every number in a document, trimmed as comparisons trim it, is a real
literal. -/
theorem Json.ofText?_numberText {n : Number} (hfinite : n.isFinite = true) :
    ∃ x, Binary64.ofText? (Text.trim (numberText n).toList) = some x ∧ x ≠ .nan := by
  cases n with
  | int i =>
      obtain ⟨hliteral, hblank⟩ := Numeral.ofText?_intText i
      rw [numberText, Text.trim_of_forall hblank]
      exact hliteral
  | double x =>
      rw [numberText, Text.trim_of_forall fun c hc => Binary64.isBlank_of_mem_text hfinite hc]
      exact Binary64.ofText?_text hfinite

end LivePage
