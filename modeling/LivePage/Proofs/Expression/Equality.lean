import LivePage.Expression.Condition
import LivePage.Proofs.Expression.Interpolation
import LivePage.Proofs.Number.Written

/-!
# Loose equality

Two values are loosely equal if they are the same document, if they are the same number, or
if they are written alike.  The three tests overlap, and yet they make one equivalence: every
value has a reading, which is nothing, a number or a text, and loose equality is equality of
readings.  That rests on the texts of numbers being real literals, and on no other value being
written as one.  The one exception is the negative zero of doubles, which equals zero as a
number and not as a text.
-/

namespace LivePage

namespace Binary64

/-- The number that a double is: zero has no sign, and not-a-number is none. -/
def value? : Binary64 → Option Binary64
  | nan => none
  | infinite negative => some (infinite negative)
  | finite negative units => some (finite (negative && units != 0) units)

@[simp]
theorem value?_eq_none_iff {x : Binary64} : x.value? = none ↔ x = nan := by
  cases x <;> simp [value?]

theorem signedUnits_eq_iff {a b : Bool} {m n : Nat} :
    signedUnits a m = signedUnits b n ↔ m = n ∧ (a && m != 0) = (b && n != 0) := by
  cases a <;> cases b <;> grind [signedUnits]

/-- Doubles are the same if they are one number. -/
theorem same_iff {x y : Binary64} :
    x.same y = true ↔ ∃ z, x.value? = some z ∧ y.value? = some z := by
  cases x with
  | nan => simp [same, value?]
  | infinite a =>
      cases y with
      | infinite b =>
          rw [same, beq_iff_eq]
          simp only [value?, Option.some.injEq, exists_eq_left', infinite.injEq]
          exact eq_comm
      | _ => simp [same, value?]
  | finite a m =>
      cases y with
      | finite b n =>
          rw [same, beq_iff_eq, signedUnits_eq_iff]
          simp only [value?, Option.some.injEq, exists_eq_left', finite.injEq]
          constructor
          · rintro ⟨rfl, hsign⟩
            exact ⟨hsign.symm, rfl⟩
          · rintro ⟨hsign, rfl⟩
            exact ⟨rfl, hsign.symm⟩
      | _ => simp [same, value?]

end Binary64

/-- Whether a number is an integer or a finite double other than the negative zero. -/
def Number.isPlain : Number → Bool
  | int _ => true
  | double x => x.isFinite && x != .finite true 0

theorem Number.value?_of_isPlain {x : Binary64} (hplain : (double x).isPlain = true) :
    x.value? = some x := by
  obtain ⟨hfinite, hzero⟩ := Bool.and_eq_true_iff.1 hplain
  cases x with
  | nan => cases hfinite
  | infinite negative => cases hfinite
  | finite negative units =>
      rw [bne_iff_ne] at hzero
      cases negative with
      | false => rfl
      | true =>
          have hunits : units ≠ 0 := fun heq => hzero (heq ▸ rfl)
          simp [Binary64.value?, hunits]

theorem Number.same_iff {a b : Number} (ha : a.isPlain = true) (hb : b.isPlain = true) :
    a.same b = true ↔ a = b := by
  cases a with
  | int i => cases b <;> simp [same]
  | double x =>
      cases b with
      | int j => simp [same]
      | double y =>
          rw [same, Binary64.same_iff, value?_of_isPlain ha, value?_of_isPlain hb, double.injEq]
          simp only [Option.some.injEq, exists_eq_left']
          exact eq_comm

/-- A number in a document is a number. -/
theorem Number.value?_toBinary64 {n : Number} (hfinite : n.isFinite = true) :
    ∃ x, n.toBinary64.value? = some x := by
  apply Option.ne_none_iff_exists'.1
  rw [Ne, Binary64.value?_eq_none_iff]
  cases n with
  | int i =>
      rw [toBinary64, Binary64.ofInt, Binary64.ofNat]
      exact Binary64.ofUnits_ne_nan _ _
  | double x =>
      rintro rfl
      cases hfinite

theorem Number.isFinite_of_isPlain {n : Number} (hplain : n.isPlain = true) :
    n.isFinite = true := by
  cases n with
  | int i => rfl
  | double x => exact (Bool.and_eq_true_iff.1 hplain).1

namespace Json

mutual

/-- The numbers in a document, at whatever depth they stand. -/
def numbers : Json → List Number
  | num n => [n]
  | arr items => itemNumbers items
  | obj members => memberNumbers members
  | _ => []

def itemNumbers : List Json → List Number
  | [] => []
  | a :: rest => numbers a ++ itemNumbers rest

def memberNumbers : List (String × Json) → List Number
  | [] => []
  | (_, a) :: rest => numbers a ++ memberNumbers rest

end

/-- No number in the document is a negative zero, and all doubles are finite, as they are in
every document. -/
def IsPlain (j : Json) : Prop :=
  ∀ n ∈ j.numbers, n.isPlain = true

instance (j : Json) : Decidable j.IsPlain :=
  inferInstanceAs (Decidable (∀ n ∈ j.numbers, n.isPlain = true))

theorem isPlain_num_iff {n : Number} : (num n).IsPlain ↔ n.isPlain = true := by
  rw [IsPlain, numbers, List.forall_mem_singleton]

theorem isPlain_arr_iff {items : List Json} :
    (arr items).IsPlain ↔ ∀ item ∈ items, item.IsPlain := by
  rw [IsPlain, numbers]
  induction items with
  | nil => simp [itemNumbers]
  | cons item rest ih => rw [itemNumbers, List.forall_mem_append, ih, List.forall_mem_cons, IsPlain]

theorem isPlain_obj_iff {members : List (String × Json)} :
    (obj members).IsPlain ↔ ∀ member ∈ members, member.2.IsPlain := by
  rw [IsPlain, numbers]
  induction members with
  | nil => simp [memberNumbers]
  | cons member rest ih =>
      rw [memberNumbers, List.forall_mem_append, ih, List.forall_mem_cons, IsPlain]

/-! ## Equal documents -/

theorem sameItems_iff {items others : List Json}
    (hitems : ∀ item ∈ items, ∀ other ∈ others, item.same other = true ↔ item = other) :
    sameItems items others = true ↔ items = others := by
  induction items generalizing others with
  | nil => cases others <;> simp [sameItems]
  | cons item rest ih =>
      cases others with
      | nil => simp [sameItems]
      | cons other others =>
          have hfirst := hitems item List.mem_cons_self other List.mem_cons_self
          have hrest := ih fun a ha b hb =>
            hitems a (List.mem_cons_of_mem item ha) b (List.mem_cons_of_mem other hb)
          rw [sameItems, Bool.and_eq_true, hfirst, hrest, List.cons.injEq]

theorem sameMembers_iff {members others : List (String × Json)}
    (hmembers : ∀ a ∈ members, ∀ b ∈ others, a.2.same b.2 = true ↔ a.2 = b.2) :
    sameMembers members others = true ↔ members = others := by
  induction members generalizing others with
  | nil => cases others <;> simp [sameMembers]
  | cons member rest ih =>
      cases others with
      | nil => simp [sameMembers]
      | cons other others =>
          have hfirst := hmembers member List.mem_cons_self other List.mem_cons_self
          have hrest := ih fun a ha b hb =>
            hmembers a (List.mem_cons_of_mem member ha) b (List.mem_cons_of_mem other hb)
          rw [sameMembers, Bool.and_eq_true, Bool.and_eq_true, beq_iff_eq, hfirst, hrest,
            List.cons.injEq, Prod.ext_iff]

/-- Without negative zeros only equal documents are the same document. -/
theorem same_iff {a b : Json} (ha : a.IsPlain) (hb : b.IsPlain) : a.same b = true ↔ a = b := by
  induction a using forall_of_parts generalizing b with
  | null => cases b <;> simp [same]
  | bool value => cases b <;> simp [same]
  | str text => cases b <;> simp [same]
  | num n =>
      cases b with
      | num m =>
          rw [same, Number.same_iff (isPlain_num_iff.1 ha) (isPlain_num_iff.1 hb), num.injEq]
      | _ => simp [same]
  | arr items ih =>
      cases b with
      | arr others =>
          rw [same, arr.injEq, sameItems_iff]
          exact fun item hitem other hother =>
            ih item hitem (isPlain_arr_iff.1 ha item hitem) (isPlain_arr_iff.1 hb other hother)
      | _ => simp [same]
  | obj members ih =>
      cases b with
      | obj others =>
          rw [same, obj.injEq, sameMembers_iff]
          exact fun member hmember other hother =>
            ih member hmember (isPlain_obj_iff.1 ha member hmember)
              (isPlain_obj_iff.1 hb other hother)
      | _ => simp [same]

/-! ## Texts that write no number -/

/-- A text between brackets is no real literal, trimmed or not. -/
theorem ofText?_bracketed {opening closing : Char}
    (hopening : opening = '[' ∨ opening = '{') (hclosing : closing = ']' ∨ closing = '}')
    (inner : List Char) :
    Binary64.ofText? (Text.trim (opening :: (inner ++ [closing]))) = none := by
  have htrim : Text.trim (opening :: (inner ++ [closing])) = opening :: (inner ++ [closing]) := by
    rw [Text.trim_eq_self_iff, List.head?_cons, ← List.cons_append, List.getLast?_concat]
    constructor
    · rintro c ⟨rfl⟩
      rcases hopening with rfl | rfl <;> rfl
    · rintro c ⟨rfl⟩
      rcases hclosing with rfl | rfl <;> rfl
  have hword (cs : List Char) : Binary64.word? false (opening :: cs) = none := by
    apply Binary64.word?_cons
    all_goals rcases hopening with rfl | rfl <;> decide
  rw [htrim]
  rcases hopening with rfl | rfl
  · simp [Binary64.ofText?, Binary64.takeSign, hword, Binary64.unsigned?, Binary64.takeFraction]
  · simp [Binary64.ofText?, Binary64.takeSign, hword, Binary64.unsigned?, Binary64.takeFraction]

/-- The text of a value that stands for no number is no real literal. -/
theorem ofText?_plainText {j : Json} (hnumber : j.asNumber? = none) :
    Binary64.ofText? (Text.trim j.plainText.toList) = none := by
  cases j with
  | null => rfl
  | bool value => cases value <;> decide
  | num n => cases hnumber
  | str s => exact hnumber
  | arr items =>
      have htext : (arr items).plainText =
          "[" ++ ",".intercalate (compactItems items) ++ "]" := by
        simp [plainText, compact]
      rw [htext]
      simpa using ofText?_bracketed (.inl rfl) (.inl rfl)
        (",".intercalate (compactItems items)).toList
  | obj members =>
      have htext : (obj members).plainText =
          "\x7b" ++ ",".intercalate (compactMembers members) ++ "\x7d" := by
        simp [plainText, compact]
      rw [htext]
      simpa using ofText?_bracketed (.inr rfl) (.inr rfl)
        (",".intercalate (compactMembers members)).toList

/-! ## Readings -/

/-- The number that a text writes, without the sign of a zero. -/
def writtenNumber? (cs : List Char) : Option Binary64 :=
  (Binary64.ofText? (Text.trim cs)).bind Binary64.value?

/-- The number that a value stands for, without the sign of a zero. -/
def number? (j : Json) : Option Binary64 :=
  j.asNumber?.bind Binary64.value?

/-- What a value is to loose equality. -/
inductive Reading where
  | nothing
  | number (value : Binary64)
  | text (text : String)
deriving DecidableEq, Repr

/-- Null is read as nothing, and a value that stands for no number as its text. -/
def reading (j : Json) : Reading :=
  if j.isNull then .nothing
  else
    match j.number? with
    | some x => .number x
    | none => .text j.plainText

theorem isNull_eq_false_iff {j : Json} : j.isNull = false ↔ j ≠ null := by
  cases j <;> simp [isNull]

/-- A value stands for a number exactly if its text writes one. -/
theorem isSome_number? {j : Json} (hplain : j.IsPlain) :
    j.number?.isSome = (writtenNumber? j.plainText.toList).isSome := by
  cases j with
  | num n =>
      have hfinite := n.isFinite_of_isPlain (isPlain_num_iff.1 hplain)
      obtain ⟨x, hx⟩ := Number.value?_toBinary64 hfinite
      obtain ⟨y, hread, hy⟩ := ofText?_numberText hfinite
      obtain ⟨z, hz⟩ := Option.ne_none_iff_exists'.1 (mt Binary64.value?_eq_none_iff.1 hy)
      have htext : (num n).plainText = numberText n := by simp [plainText, compact]
      rw [number?, asNumber?, Option.bind_some, hx, writtenNumber?, htext, hread, Option.bind_some,
        hz]
      rfl
  | str s => rfl
  | null => rfl
  | bool | arr | obj =>
      rw [writtenNumber?, ofText?_plainText rfl]
      rfl

/-- Only a text can stand for not-a-number. -/
theorem eq_str_of_value?_eq_none {j : Json} (hplain : j.IsPlain) {x : Binary64}
    (hnumber : j.asNumber? = some x) (hnone : x.value? = none) : j = str j.plainText := by
  cases j with
  | num n =>
      obtain ⟨y, hy⟩ :=
        Number.value?_toBinary64 (n.isFinite_of_isPlain (isPlain_num_iff.1 hplain))
      rw [asNumber?, Option.some.injEq] at hnumber
      rw [← hnumber, hy] at hnone
      cases hnone
  | str s => rfl
  | _ => cases hnumber

theorem reading_of_number? {j : Json} {x : Binary64} (hnumber : j.number? = some x) :
    j.reading = .number x := by
  have hnull : j ≠ null := by
    rintro rfl
    cases hnumber
  rw [reading, isNull_eq_false_iff.2 hnull, if_neg Bool.false_ne_true, hnumber]

theorem reading_of_number?_eq_none {j : Json} (hnull : j ≠ null) (hnumber : j.number? = none) :
    j.reading = .text j.plainText := by
  rw [reading, isNull_eq_false_iff.2 hnull, if_neg Bool.false_ne_true, hnumber]

/-- Values that both stand for numbers compare as such, and texts of not-a-number as texts. -/
theorem same_iff_reading {a b : Json} (ha : a.IsPlain) (hb : b.IsPlain) (hne : a ≠ b)
    {x y : Binary64} (hx : a.asNumber? = some x) (hy : b.asNumber? = some y) :
    x.same y = true ↔ a.reading = b.reading := by
  have hfirst : a.number? = x.value? := by rw [number?, hx, Option.bind_some]
  have hsecond : b.number? = y.value? := by rw [number?, hy, Option.bind_some]
  have hnull {j : Json} {x : Binary64} (hnumber : j.asNumber? = some x) : j ≠ null := by
    rintro rfl
    cases hnumber
  rw [Binary64.same_iff]
  cases hu : x.value? with
  | none =>
      rw [reading_of_number?_eq_none (hnull hx) (hfirst.trans hu)]
      cases hv : y.value? with
      | none =>
          rw [reading_of_number?_eq_none (hnull hy) (hsecond.trans hv)]
          have htext : a.plainText ≠ b.plainText := by
            intro heq
            rw [eq_str_of_value?_eq_none ha hx hu, eq_str_of_value?_eq_none hb hy hv, heq] at hne
            exact hne rfl
          simp [htext]
      | some v =>
          rw [reading_of_number? (hsecond.trans hv)]
          simp
  | some u =>
      rw [reading_of_number? (hfirst.trans hu)]
      cases hv : y.value? with
      | none =>
          rw [reading_of_number?_eq_none (hnull hy) (hsecond.trans hv)]
          simp
      | some v =>
          rw [reading_of_number? (hsecond.trans hv)]
          simp [eq_comm]

/-- A value that stands for no number is written as nothing that has another reading. -/
theorem plainText_eq_iff_reading {a b : Json} (ha : a.IsPlain) (hb : b.IsPlain)
    (hnulla : a ≠ null) (hnullb : b ≠ null) (hnumber : a.number? = none) :
    a.plainText = b.plainText ↔ a.reading = b.reading := by
  rw [reading_of_number?_eq_none hnulla hnumber]
  cases hv : b.number? with
  | none => rw [reading_of_number?_eq_none hnullb hv, Reading.text.injEq]
  | some v =>
      have htext : a.plainText ≠ b.plainText := by
        intro heq
        have hsome := isSome_number? ha
        rw [heq, ← isSome_number? hb, hnumber, hv] at hsome
        cases hsome
      rw [reading_of_number? hv]
      simp [htext]

theorem reading_eq_nothing_iff {j : Json} : j.reading = .nothing ↔ j = null := by
  constructor
  · intro hreading
    by_contra hnull
    cases hnumber : j.number? with
    | none => cases hreading.symm.trans (reading_of_number?_eq_none hnull hnumber)
    | some x => cases hreading.symm.trans (reading_of_number? hnumber)
  · rintro rfl
    rfl

/-- Values of which one stands for no number compare as texts, and null as itself. -/
theorem texts_iff_reading {a b : Json} (ha : a.IsPlain) (hb : b.IsPlain) (hne : a ≠ b)
    (hnumber : a.asNumber? = none ∨ b.asNumber? = none) :
    (!a.isNull && !b.isNull && a.plainText == b.plainText) = true ↔ a.reading = b.reading := by
  by_cases hnulla : a = null
  · subst hnulla
    have hreading : null.reading ≠ b.reading :=
      fun heq => hne (reading_eq_nothing_iff.1 heq.symm).symm
    simp [isNull, hreading]
  · by_cases hnullb : b = null
    · subst hnullb
      have hreading : a.reading ≠ null.reading := fun heq => hne (reading_eq_nothing_iff.1 heq)
      simp [isNull, hreading]
    · rw [isNull_eq_false_iff.2 hnulla, isNull_eq_false_iff.2 hnullb, Bool.not_false,
        Bool.true_and, Bool.true_and, beq_iff_eq]
      rcases hnumber with hfirst | hsecond
      · exact plainText_eq_iff_reading ha hb hnulla hnullb (by rw [number?, hfirst]; rfl)
      · rw [eq_comm, eq_comm (a := a.reading)]
        exact plainText_eq_iff_reading hb ha hnullb hnulla (by rw [number?, hsecond]; rfl)

/-- Loose equality is equality of readings. -/
theorem looselyEqual_iff {a b : Json} (ha : a.IsPlain) (hb : b.IsPlain) :
    a.looselyEqual b = true ↔ a.reading = b.reading := by
  rw [looselyEqual]
  by_cases heq : a = b
  · subst heq
    rw [if_pos ((same_iff ha ha).2 rfl)]
    exact iff_of_true rfl rfl
  · rw [if_neg (mt (same_iff ha hb).1 heq)]
    cases hx : a.asNumber? with
    | none => exact texts_iff_reading ha hb heq (.inl hx)
    | some x =>
        cases hy : b.asNumber? with
        | none => exact texts_iff_reading ha hb heq (.inr hy)
        | some y => exact same_iff_reading ha hb heq hx hy

/-- Null is loosely equal to nothing else. -/
theorem looselyEqual_null_iff {j : Json} : null.looselyEqual j = true ↔ j = null := by
  rw [looselyEqual]
  cases j <;> simp [same, asNumber?, isNull]

theorem str_same_iff {s : String} {j : Json} : (str s).same j = true ↔ j = str s := by
  cases j with
  | str t => simpa [same] using eq_comm
  | _ => simp [same]

theorem same_str_iff {s : String} {j : Json} : j.same (str s) = true ↔ j = str s := by
  cases j <;> simp [same]

/-- No other value that is no number is written as a text that writes one. -/
theorem plainText_ne_of_asNumber? {s : String} {j : Json} {x : Binary64}
    (hwrites : (str s).asNumber? = some x) (hnumber : j.asNumber? = none) : s ≠ j.plainText := by
  rintro rfl
  cases (ofText?_plainText hnumber).symm.trans hwrites

/-- A text that writes not-a-number is loosely equal to nothing else. -/
theorem looselyEqual_iff_of_nan {s : String} (hnan : (str s).asNumber? = some .nan) (j : Json) :
    (str s).looselyEqual j = true ↔ j = str s := by
  rw [looselyEqual, hnan]
  by_cases heq : j = str s
  · rw [if_pos (str_same_iff.2 heq)]
    exact iff_of_true rfl heq
  · rw [if_neg (mt str_same_iff.1 heq)]
    cases hnumber : j.asNumber? with
    | some y => simp [Binary64.same, heq]
    | none =>
        have hplain : (str s).plainText = s := rfl
        simp [hplain, plainText_ne_of_asNumber? hnan hnumber, heq]

/-- Nothing else is loosely equal to a text that writes not-a-number. -/
theorem looselyEqual_nan_iff {s : String} (hnan : (str s).asNumber? = some .nan) (j : Json) :
    j.looselyEqual (str s) = true ↔ j = str s := by
  rw [looselyEqual, hnan]
  by_cases heq : j = str s
  · rw [if_pos (same_str_iff.2 heq)]
    exact iff_of_true rfl heq
  · rw [if_neg (mt same_str_iff.1 heq)]
    cases hnumber : j.asNumber? with
    | some y => cases y <;> simp [Binary64.same, heq]
    | none =>
        have hplain : (str s).plainText = s := rfl
        simp [hplain, (plainText_ne_of_asNumber? hnan hnumber).symm, heq]

/-! ## The equivalence -/

/-- The values that documents can hold, but those with a negative zero in them. -/
abbrev Plain : Type :=
  { j : Json // j.IsPlain }

/-- Loose equality is an equivalence on the values without a negative zero: equality of
readings.  It is what the operators `equals` and `notEquals` test, and what `contains` tests of
the items of an array.  Null and the texts of not-a-number are equal to themselves alone, also
among values with negative zeros. -/
theorem equivalence_equals :
    Equivalence (fun a b : Plain => Operator.equals.holds a b = true) ∧
      (∀ a b : Json, Operator.equals.holds a b = a.looselyEqual b ∧
        Operator.notEquals.holds a b = !Operator.equals.holds a b) ∧
      (∀ (items : List Json) (needle : Json), Operator.contains.holds (arr items) needle = true ↔
        ∃ item ∈ items, Operator.equals.holds item needle = true) ∧
      (∀ j : Json, Operator.equals.holds null j = true ↔ j = null) ∧
      ∀ s : String, (str s).asNumber? = some .nan →
        ∀ j : Json, Operator.equals.holds (str s) j = true ↔ j = str s := by
  refine ⟨⟨fun a => ?_, fun {a b} h => ?_, fun {a b c} h h' => ?_⟩, fun a b => ⟨rfl, rfl⟩,
    fun items needle => List.any_eq_true, fun j => looselyEqual_null_iff, fun s hnan j =>
      looselyEqual_iff_of_nan hnan j⟩
  · exact (looselyEqual_iff a.2 a.2).2 rfl
  · exact (looselyEqual_iff b.2 a.2).2 ((looselyEqual_iff a.2 b.2).1 h).symm
  · exact (looselyEqual_iff a.2 c.2).2
      (((looselyEqual_iff a.2 b.2).1 h).trans ((looselyEqual_iff b.2 c.2).1 h'))

/-- Texts of one number are equal by way of the number, and not-a-number is no number. -/
theorem equals_texts_of_one :
    Operator.equals.holds (str " 1e0 ") (str "1") = true ∧
      ∀ j : Json, Operator.equals.holds (str " NaN ") j = true ↔ j = str " NaN " := by
  have hplain (s : String) : (str s).IsPlain := nofun
  have hone : (ofInt 1).IsPlain := by decide
  have hfirst : Operator.equals.holds (str " 1e0 ") (ofInt 1) = true := by decide +kernel
  have hsecond : Operator.equals.holds (ofInt 1) (str "1") = true := by decide +kernel
  constructor
  · exact equivalence_equals.1.trans (x := ⟨_, hplain " 1e0 "⟩) (y := ⟨_, hone⟩)
      (z := ⟨_, hplain "1"⟩) hfirst hsecond
  · exact equivalence_equals.2.2.2.2 " NaN " (by decide)

/-- A negative zero makes a difference in the text of an array that it is in. -/
example :
    (str "[-0.0]").looselyEqual (arr [num (.double (.finite true 0))]) = true ∧
      (arr [num (.double (.finite true 0))]).looselyEqual (arr [num (.double (.finite false 0))]) =
        true ∧
      (str "[-0.0]").looselyEqual (arr [num (.double (.finite false 0))]) = false := by
  decide +kernel

end Json
end LivePage
