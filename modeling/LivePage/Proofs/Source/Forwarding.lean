import LivePage.Proofs.Source.Lines
import LivePage.Proofs.Text.Blank

/-!
# Forwarded lines

Forwarding sends the records on the lines of its input, up to the first line that is not
UTF-8, each once and in order, and reports how many these were.  If nobody takes records any
more after some of them, it stops in front of the next one.
-/

namespace LivePage.Lines

/-! ## Lines and their texts -/

/-- A line as text, if it is UTF-8. -/
def text? (line : List UInt8) : Option String :=
  String.fromUTF8? ⟨line.toArray⟩

/-- The value of a text that is JSON when it is trimmed. -/
def value? (text : String) : Option Json :=
  (Json.parse text.trimmed).toOption

/-- The values that some bytes hold: those of the lines that are JSON, up to the first line
that is not UTF-8.  A line stands between line ends, or behind the last one. -/
def due (bytes : List UInt8) : List Json :=
  (((bytes.splitOn 0x0A).map text?).takeWhile Option.isSome).filterMap (·.bind value?)

theorem isReadable_eq (line : List UInt8) : isReadable line = (text? line).isSome := by
  rw [isReadable, reading, text?]
  cases String.fromUTF8? ⟨line.toArray⟩ with
  | none => rfl
  | some text =>
      by_cases hblank : text.isBlank = true
      · simp [hblank]
      · cases hparse : Json.parse text.trimmed <;> simp [hblank, hparse]

/-- A blank text is not JSON. -/
theorem value?_of_isBlank {text : String} (hblank : text.isBlank = true) : value? text = none := by
  have htrim : text.trimmed = "" := by
    rw [String.trimmed, Text.trim_eq_nil_iff.2 hblank]
  rw [value?, htrim]
  rfl

theorem record?_eq (line : List UInt8) : record? line = (text? line).bind value? := by
  rw [record?, reading, text?]
  cases String.fromUTF8? ⟨line.toArray⟩ with
  | none => rfl
  | some text =>
      rw [Option.bind_some]
      by_cases hblank : text.isBlank = true
      · simp [hblank, value?_of_isBlank hblank]
      · rw [value?]
        cases hparse : Json.parse text.trimmed <;> simp [hblank, hparse, Except.toOption]

/-- Cutting into lines loses the line ends and nothing else. -/
theorem cut_eq_splitOn (bytes : List UInt8) :
    (cut bytes).1 ++ [(cut bytes).2] = bytes.splitOn 0x0A := by
  induction bytes with
  | nil => rfl
  | cons b rest ih =>
      rw [List.splitOn, List.splitOnP_cons_eq_if_modifyHead, ← List.splitOn, ← ih]
      by_cases hb : b = 0x0A
      · subst hb
        rw [cut_lineEnd]
        rfl
      · rw [cut_cons hb, if_neg (by simpa using hb)]
        cases (cut rest).1 <;> rfl

/-- An empty line at the end makes no difference to the records. -/
theorem records_readable_append_nil (lines : List (List UInt8)) :
    records ((lines ++ [[]]).takeWhile isReadable) = records (lines.takeWhile isReadable) := by
  induction lines with
  | nil => rfl
  | cons line rest ih =>
      rw [List.cons_append, List.takeWhile_cons, List.takeWhile_cons]
      split
      · rw [records, List.filterMap_cons, ← records, ih]
        rfl
      · rfl

/-- The values that some bytes hold are the records on their readable lines. -/
theorem due_eq (bytes : List UInt8) :
    due bytes = records ((all bytes).takeWhile isReadable) := by
  have hdue : due bytes = records ((bytes.splitOn 0x0A).takeWhile isReadable) := by
    rw [due, List.takeWhile_map, List.filterMap_map, records]
    congr 1
    · funext line
      exact (record?_eq line).symm
    · congr 1
      funext line
      exact (isReadable_eq line).symm
  rw [hdue, ← cut_eq_splitOn, all]
  dsimp only
  -- Behind a line end at the very end there is one line more to the cut, an empty one.
  split
  · next hended =>
      rw [hended]
      exact records_readable_append_nil _
  · rfl

/-! ## Forwarding -/

/-- Forwarding sent some records and reported their number, and it ended or was stopped. -/
structure Forwarded.Sent (forwarded : Forwarded) (records : List Json) (isStopped : Bool) :
    Prop where
  values : forwarded.values = records
  sent : forwarded.sent = records.length
  stopped : forwarded.stopped = isStopped

/-- Forwarding sent those of some records that there is room for, and it was stopped if that
is not all of them. -/
def Forwarded.SentOf (forwarded : Forwarded) (room : Option Nat) (records : List Json) : Prop :=
  forwarded.Sent (records.take (room.getD records.length)) (room.any (· < records.length))

theorem Forwarded.sentOf_nil (room : Option Nat) (warnings : List String) :
    ({ warnings } : Forwarded).SentOf room [] := by
  refine ⟨List.take_nil.symm, by simp, ?_⟩
  cases room <;> simp

theorem Forwarded.sentOf_cons {forwarded : Forwarded} {room : Option Nat} {records : List Json}
    (hroom : room ≠ some 0) (hrest : forwarded.SentOf (room.map (· - 1)) records) (record : Json) :
    ({ forwarded with values := record :: forwarded.values, sent := forwarded.sent + 1 } :
      Forwarded).SentOf room (record :: records) := by
  obtain ⟨hvalues, hsent, hstopped⟩ := hrest
  cases room with
  | none => exact ⟨by simpa using hvalues, by simpa using hsent, by simpa using hstopped⟩
  | some k =>
      cases k with
      | zero => exact absurd rfl hroom
      | succ k => exact ⟨by simpa using hvalues, by simpa using hsent, by simpa using hstopped⟩

/-- Of the records on its readable lines forwarding sends those that there is room for. -/
theorem sentOf_forward (room : Option Nat) (lines : List (List UInt8)) :
    (forward room false lines).SentOf room (records (lines.takeWhile isReadable)) := by
  -- Every record that is sent leaves room for one less.
  induction lines generalizing room with
  | nil => exact Forwarded.sentOf_nil room []
  | cons line rest ih =>
      rw [forward, List.takeWhile_cons]
      have hfated := fated room line
      generalize fate room line = outcome at hfated
      cases hfated with
      | skipped warning hreadable hrecord =>
          -- Only the warnings are others than those of the rest.
          rw [if_pos hreadable, records, List.filterMap_cons_none hrecord]
          obtain ⟨hvalues, hsent, hstopped⟩ := ih room
          exact ⟨hvalues, hsent, hstopped⟩
      | sent value hreadable hrecord hroom =>
          rw [if_pos hreadable, records, List.filterMap_cons_some hrecord]
          exact Forwarded.sentOf_cons hroom (ih (room.map (· - 1))) value
      | unreadable hreadable =>
          rw [hreadable, if_neg Bool.false_ne_true]
          exact Forwarded.sentOf_nil room [unreadableWarning]
      | refused value hreadable hrecord hroom =>
          subst hroom
          rw [if_pos hreadable, records, List.filterMap_cons_some hrecord]
          exact ⟨rfl, rfl, by simp⟩

/-- What forwarding does with some bytes.  While records are taken it sends the values that
the bytes hold, up to the first line that is not UTF-8, reports how many these are and ends by
itself.  If records are taken up to a number that is smaller than theirs, it hands over so
many of them, the first ones, reports that number and is stopped; and room for all of them is
as good as any. -/
theorem forwards_due (bytes : List UInt8) :
    (forward none false (all bytes)).Sent (due bytes) false ∧
      ∀ k, (k < (due bytes).length →
          (forward (some k) false (all bytes)).Sent ((due bytes).take k) true ∧
            (forward (some k) false (all bytes)).sent = k) ∧
        ((due bytes).length ≤ k →
          (forward (some k) false (all bytes)).Sent (due bytes) false) := by
  rw [due_eq]
  refine ⟨?_, fun k => ⟨fun hless => ?_, fun hroom => ?_⟩⟩
  · simpa [Forwarded.SentOf] using sentOf_forward none (all bytes)
  · have hsent := sentOf_forward (some k) (all bytes)
    rw [Forwarded.SentOf, Option.getD_some, Option.any_some, decide_eq_true hless] at hsent
    refine ⟨hsent, ?_⟩
    rw [hsent.sent, List.length_take_of_le hless.le]
  · have hsent := sentOf_forward (some k) (all bytes)
    rwa [Forwarded.SentOf, Option.getD_some, Option.any_some, List.take_of_length_le hroom,
      decide_eq_false hroom.not_gt] at hsent

/-- Of a number, an empty line, a word and a number on a line that is not ended the two
numbers are sent, and only the first of them where there is room for one.  Behind a line that
is not UTF-8 nothing is sent. -/
theorem forwards_due_of_torn :
    let bytes : List UInt8 := [0x31, 0x0A, 0x0A, 0x6E, 0x6F, 0x0A, 0x20, 0x32]
    let torn : List UInt8 := bytes ++ [0x0A, 0xFF, 0x0A, 0x33]
    due bytes = [.ofNat 1, .ofNat 2] ∧ due torn = due bytes ∧
      (forward none false (all torn)).Sent [.ofNat 1, .ofNat 2] false ∧
      1 < (due bytes).length ∧
      ((forward (some 1) false (all bytes)).Sent [.ofNat 1] true ∧
        (forward (some 1) false (all bytes)).sent = 1) ∧
      (due bytes).length ≤ 2 ∧
      (forward (some 2) false (all bytes)).Sent [.ofNat 1, .ofNat 2] false := by
  intro bytes torn
  have hdue : due bytes = [.ofNat 1, .ofNat 2] := rfl
  have htorn : due torn = [.ofNat 1, .ofNat 2] := rfl
  have hmore : 1 < (due bytes).length := by rw [hdue]; decide
  have hroom : (due bytes).length ≤ 2 := by rw [hdue]; decide
  obtain ⟨hall, -⟩ := forwards_due torn
  obtain ⟨-, hlimited⟩ := forwards_due bytes
  have hone := (hlimited 1).1 hmore
  have htwo := (hlimited 2).2 hroom
  rw [hdue] at hone htwo
  rw [htorn] at hall
  exact ⟨hdue, htorn.trans hdue.symm, hall, hmore, hone, hroom, htwo⟩

end LivePage.Lines
