import LivePage.Number.Numeral
import LivePage.Text.Blank

/-!
# Numerals that are read

The numeral of a number reads as that number.  A text names a position if it is the
decimal numeral of one, with or without leading zeros and a plus sign.
-/

namespace LivePage

namespace Numeral

/-- A numeral holds nothing but digits. -/
theorem isDigit_of_mem_text {n : Nat} {c : Char} (hc : c ∈ (text n).toList) :
    c.isDigit = true := by
  rw [text, String.toList_ofList] at hc
  exact Nat.isDigit_of_mem_toDigits (by decide) (by decide) hc

theorem toList_text_ne_nil (n : Nat) : (text n).toList ≠ [] := by
  rw [text, String.toList_ofList]
  exact Nat.toDigits_ne_nil

/-- A run of digits writes a number in base ten. -/
theorem value_eq_ofDigitChars (cs : List Char) : value cs = Nat.ofDigitChars 10 cs 0 := by
  rw [value, Nat.ofDigitChars_eq_foldl]
  congr 1
  funext n c
  rw [push, Nat.mul_comm]

/-- The text is a numeral for a position: digits, perhaps behind a plus sign, that write it
in base ten. -/
def Names (cs : List Char) (position : UInt64) : Prop :=
  ∃ digits, (cs = digits ∨ cs = '+' :: digits) ∧ digits ≠ [] ∧
    (∀ c ∈ digits, c.isDigit = true) ∧ Nat.ofDigitChars 10 digits 0 = position.toNat

theorem nat?_eq_some_iff {cs : List Char} {n : Nat} :
    nat? cs = some n ↔
      cs ≠ [] ∧ (∀ c ∈ cs, c.isDigit = true) ∧ Nat.ofDigitChars 10 cs 0 = n := by
  rw [nat?, ← value_eq_ofDigitChars, ← List.all_eq_true, ← and_assoc]
  split
  · next hdigits => rw [Option.some.injEq, and_iff_right hdigits]
  · next hdigits => simp only [hdigits, false_and, reduceCtorEq]

theorem eq_unsigned_or_eq_cons (cs : List Char) : cs = unsigned cs ∨ cs = '+' :: unsigned cs := by
  rw [unsigned.eq_def]
  split
  · exact .inr rfl
  · exact .inl rfl

theorem unsigned_of_digits {cs : List Char} (hdigits : ∀ c ∈ cs, c.isDigit = true) :
    unsigned cs = cs := by
  rw [unsigned.eq_def]
  split
  · exact absurd (hdigits _ List.mem_cons_self) (by decide)
  · rfl

theorem position?_eq_some_iff {cs : List Char} {position : UInt64} :
    position? cs = some position ↔ Names cs position := by
  constructor
  · intro hposition
    obtain ⟨n, hn, hsmall⟩ := Option.bind_eq_some_iff.1 hposition
    obtain ⟨hne, hdigits, hvalue⟩ := nat?_eq_some_iff.1 hn
    refine ⟨unsigned cs, eq_unsigned_or_eq_cons cs, hne, hdigits, ?_⟩
    split at hsmall
    · next hlt => rw [hvalue, ← Option.some.inj hsmall, Nat.toUInt64, UInt64.toNat_ofNat_of_lt' hlt]
    · cases hsmall
  · rintro ⟨digits, hcs, hne, hdigits, hvalue⟩
    have hunsigned : unsigned cs = digits := by
      rcases hcs with rfl | rfl
      · exact unsigned_of_digits hdigits
      · rfl
    have hn : nat? (unsigned cs) = some position.toNat := by
      rw [hunsigned, nat?_eq_some_iff]
      exact ⟨hne, hdigits, hvalue⟩
    rw [position?, hn, Option.bind_eq_bind, Option.bind_some, if_pos position.toNat_lt,
      Nat.toUInt64, UInt64.ofNat_toNat]

/-- The numeral of a position names it. -/
theorem names_digits (position : UInt64) : Names (digits position.toNat) position := by
  refine ⟨_, .inl rfl, Nat.toDigits_ne_nil, fun c hc => ?_, Nat.ofDigitChars_ten_toDigits⟩
  exact Nat.isDigit_of_mem_toDigits (by decide) (by decide) hc

end Numeral

/-- No digit is blank. -/
theorem Text.isBlank_of_isDigit {c : Char} (hc : c.isDigit = true) : isBlank c = false := by
  rw [Char.isDigit, Bool.and_eq_true, decide_eq_true_iff, decide_eq_true_iff] at hc
  have hlow : 48 ≤ c.toNat := UInt32.le_iff_toNat_le.1 hc.1
  have hhigh : c.toNat ≤ 57 := UInt32.le_iff_toNat_le.1 hc.2
  simp [isBlank]
  omega

end LivePage
