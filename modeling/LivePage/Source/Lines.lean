import LivePage.Json.Shape
import LivePage.Text.Blank

/-!
# Lines of records

Trigger records come one a line.  Blank lines are skipped, and lines that are no
JSON give a warning; a line that is not UTF-8 ends the reading.  Reading also
ends where nobody takes the records any more.
-/

namespace LivePage.Lines

/-- What a line is. -/
inductive Reading where
  | blank
  | record (value : Json)
  | malformed
  /-- The line is not UTF-8. -/
  | unreadable

def reading (line : List UInt8) : Reading :=
  match String.fromUTF8? (ByteArray.mk line.toArray) with
  | none => .unreadable
  | some text =>
      if text.isBlank then .blank
      else match Json.parse text.trimmed with
        | .ok value => .record value
        | .error _ => .malformed

/-- The lines of some bytes that are ended, and what stands behind the last line
end. -/
def cut : List UInt8 → List (List UInt8) × List UInt8
  | [] => ([], [])
  | b :: rest =>
      let (lines, last) := cut rest
      if b = 0x0A then ([] :: lines, last)
      else match lines with
        | [] => ([], b :: last)
        | line :: lines => ((b :: line) :: lines, last)

/-- All lines of some bytes, the last one also if it is not ended. -/
def all (bytes : List UInt8) : List (List UInt8) :=
  let (lines, last) := cut bytes
  if last = [] then lines else lines ++ [last]

/-- The warning about a line that is no JSON. -/
def malformedWarning : String := "Failed to parse trigger record"

/-- The warning about a line that is not UTF-8. -/
def unreadableWarning : String := "Read error; stopping"

/-- What becomes of a line. -/
inductive Fate where
  /-- It is passed over, perhaps with a warning. -/
  | skipped (warning : Option String)
  | sent (value : Json)
  /-- The reading ends here. -/
  | unreadable
  /-- Nobody takes its record. -/
  | refused

/-- What becomes of a line if the receiver has room for some number of records, or for
any. -/
def fate (room : Option Nat) (line : List UInt8) : Fate :=
  match reading line with
  | .blank => .skipped none
  | .malformed => .skipped (some malformedWarning)
  | .unreadable => .unreadable
  | .record value => if room = some 0 then .refused else .sent value

/-- What forwarding lines leaves. -/
structure Forwarded where
  /-- The records that were sent, in order. -/
  values : List Json := []
  /-- The number of them that is reported. -/
  sent : Nat := 0
  warnings : List String := []
  /-- Whether it ended because nobody takes records, or because it was told to. -/
  stopped : Bool := false
deriving Inhabited

/-- Forwards lines to a receiver that has room for some number of records, or for
any.  Behind the last line the input ends, or, if it is held open, forwarding is
stopped. -/
def forward (room : Option Nat) (heldOpen : Bool) : List (List UInt8) → Forwarded
  | [] => { stopped := heldOpen }
  | line :: rest =>
      match fate room line with
      | .skipped warning =>
          let forwarded := forward room heldOpen rest
          { forwarded with warnings := warning.toList ++ forwarded.warnings }
      | .sent value =>
          let forwarded := forward (room.map (· - 1)) heldOpen rest
          { forwarded with values := value :: forwarded.values, sent := forwarded.sent + 1 }
      | .unreadable => { warnings := [unreadableWarning] }
      | .refused => { stopped := true }

end LivePage.Lines
