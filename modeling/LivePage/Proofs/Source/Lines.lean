import LivePage.Source.Lines

/-!
# Lines and their records

Which records stand on some lines, and which of them are sent: those up to the first line
that is not UTF-8.  Bytes put behind others complete the line that these end in, if any, and
leave the ended lines alone.
-/

namespace LivePage.Lines

/-- The record on a line. -/
def record? (line : List UInt8) : Option Json :=
  match reading line with
  | .record value => some value
  | _ => none

/-- The records on some lines, in order. -/
def records (lines : List (List UInt8)) : List Json :=
  lines.filterMap record?

/-- Whether a line is UTF-8. -/
def isReadable (line : List UInt8) : Bool :=
  match reading line with
  | .unreadable => false
  | _ => true

theorem records_append (lines more : List (List UInt8)) :
    records (lines ++ more) = records lines ++ records more :=
  List.filterMap_append

/-- What a line is that has some fate, if the receiver has some room. -/
inductive Fated (room : Option Nat) (line : List UInt8) : Fate → Prop where
  | skipped (warning : Option String) : isReadable line = true → record? line = none →
      Fated room line (.skipped warning)
  | sent (value : Json) : isReadable line = true → record? line = some value → room ≠ some 0 →
      Fated room line (.sent value)
  | unreadable : isReadable line = false → Fated room line .unreadable
  | refused (value : Json) : isReadable line = true → record? line = some value →
      room = some 0 → Fated room line .refused

theorem fated (room : Option Nat) (line : List UInt8) : Fated room line (fate room line) := by
  rw [fate]
  cases hreading : reading line with
  | blank => exact .skipped none (by rw [isReadable, hreading]) (by rw [record?, hreading])
  | malformed =>
      exact .skipped malformedWarning (by rw [isReadable, hreading]) (by rw [record?, hreading])
  | unreadable => exact .unreadable (by rw [isReadable, hreading])
  | record value =>
      have hreadable : isReadable line = true := by rw [isReadable, hreading]
      have hrecord : record? line = some value := by rw [record?, hreading]
      dsimp only
      split
      · next hroom => exact .refused value hreadable hrecord hroom
      · next hroom => exact .sent value hreadable hrecord hroom

theorem cut_lineEnd (rest : List UInt8) :
    cut (0x0A :: rest) = ([] :: (cut rest).1, (cut rest).2) := by
  rw [cut]
  exact if_pos rfl

/-- A byte that is no line end stands in front of what begins there. -/
theorem cut_cons {b : UInt8} (hb : b ≠ 0x0A) (rest : List UInt8) :
    cut (b :: rest) = match (cut rest).1 with
      | [] => ([], b :: (cut rest).2)
      | line :: lines => ((b :: line) :: lines, (cut rest).2) := by
  rw [cut]
  exact if_neg hb

/-- Behind an ended line bytes stand on lines of their own. -/
theorem cut_append {bytes : List UInt8} (hended : (cut bytes).2 = []) (more : List UInt8) :
    cut (bytes ++ more) = ((cut bytes).1 ++ (cut more).1, (cut more).2) := by
  induction bytes with
  | nil => rfl
  | cons b rest ih =>
      by_cases hb : b = 0x0A
      · subst hb
        rw [cut_lineEnd] at hended
        rw [List.cons_append, cut_lineEnd, cut_lineEnd, ih hended]
        rfl
      · rw [cut_cons hb] at hended
        rw [List.cons_append, cut_cons hb, cut_cons hb]
        cases hlines : (cut rest).1 with
        | nil =>
            rw [hlines] at hended
            cases hended
        | cons line lines =>
            rw [hlines] at hended
            rw [ih hended, hlines]
            rfl

@[simp]
theorem all_nil : all [] = [] := rfl

/-- All lines of some bytes, if the last one of those in front is ended. -/
theorem all_append {bytes : List UInt8} (hended : (cut bytes).2 = []) (more : List UInt8) :
    all (bytes ++ more) = all bytes ++ all more := by
  rw [all, all, all, cut_append hended]
  simp only [hended, if_true]
  split
  · rfl
  · rw [List.append_assoc]

end LivePage.Lines
