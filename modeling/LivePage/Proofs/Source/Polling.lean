import LivePage.Proofs.Source.Lines
import LivePage.Source.Poller

/-!
# Steps of polls

All that one step of a poll can do, by the phase that the poll is in.  What holds of polled
files at every moment follows from it, whatever else happens to the file between two steps.
If nothing happens to the file between them, the steps of a poll forward its lines as the
lines of any other input are forwarded.
-/

namespace LivePage

/-- What a step of a poll can do that sees an entry. -/
inductive Poller.Turn (poller : Poller) (entry : FileEntry) : PollStep → Prop where
  /-- There is no file to be sent, or the source has ended. -/
  | idle {warnings : List String} :
      poller.phase = .looking ∨ poller.phase = .ended →
      Turn poller entry { poller, warnings }
  | looked {file : RegularFile} :
      poller.phase = .looking → entry = .regular file → poller.skips file.signature = false →
      Turn poller entry { poller := poller.inPhase (.reading file.signature) }
  /-- The file cannot be read, or it is blank. -/
  | passed {signature : FileSignature} {warnings : List String} :
      poller.phase = .reading signature →
      Turn poller entry { poller := poller.inPhase .looking, warnings }
  | read {signature : FileSignature} {bytes : List UInt8} :
      poller.phase = .reading signature → entry.content? = some bytes →
      Turn poller entry { poller := poller.inPhase (.sending signature (Lines.all bytes)) }
  /-- A line is dealt with, and its record is sent if it has one. -/
  | forwarded {signature : FileSignature} {line : List UInt8} {rest : List (List UInt8)}
      {warnings : List String} :
      poller.phase = .sending signature (line :: rest) → Lines.isReadable line = true →
      Turn poller entry {
        poller := poller.inPhase (.sending signature rest)
        values := Lines.records [line]
        warnings }
  /-- There are no more lines, or the next one cannot be read. -/
  | cut {signature : FileSignature} {lines : List (List UInt8)} {warnings : List String} :
      poller.phase = .sending signature lines → lines.takeWhile Lines.isReadable = [] →
      Turn poller entry { poller := poller.inPhase (.finishing signature), warnings }
  /-- Nobody takes the next record. -/
  | refused {signature : FileSignature} {lines : List (List UInt8)} :
      poller.phase = .sending signature lines →
      Turn poller entry { poller := poller.inPhase .ended }
  | removed {signature : FileSignature} {warnings : List String} :
      poller.phase = .finishing signature → poller.deleteOnSuccess = true →
      Turn poller entry { poller := poller.inPhase .looking, warnings, removes := true }
  | remembered {signature : FileSignature} :
      poller.phase = .finishing signature → poller.deleteOnSuccess = false →
      Turn poller entry
        { poller := { poller with dispatched := some signature, phase := .looking } }

theorem Poller.turn_step (poller : Poller) (entry : FileEntry) (room : Option Nat) :
    poller.Turn entry (poller.step entry room) := by
  rw [step.eq_def]
  split
  case h_1 hphase =>
    split
    · exact .idle (.inl hphase)
    · exact .idle (.inl hphase)
    · split
      · exact .idle (.inl hphase)
      · next hdiffers => exact .looked hphase rfl (Bool.eq_false_iff.2 hdiffers)
  case h_2 signature hphase =>
    split
    · exact .passed hphase
    · next bytes hcontent =>
        split
        · exact .passed hphase
        · exact .read hphase hcontent
  case h_3 signature hphase => exact .cut hphase rfl
  case h_4 signature line rest hphase =>
    have hfated := Lines.fated room line
    generalize Lines.fate room line = outcome at hfated
    cases hfated with
    | skipped warning hreadable hrecord =>
        have hnone : Lines.records [line] = [] := List.filterMap_cons_none hrecord
        dsimp only
        rw [← hnone]
        exact .forwarded hphase hreadable
    | sent value hreadable hrecord _ =>
        have hone : Lines.records [line] = [value] := List.filterMap_cons_some hrecord
        dsimp only
        rw [← hone]
        exact .forwarded hphase hreadable
    | unreadable hreadable =>
        refine .cut hphase (List.takeWhile_cons_of_neg ?_)
        rw [hreadable]
        exact Bool.false_ne_true
    | refused => exact .refused hphase
  case h_5 signature hphase =>
    split
    · next hdelete => exact .removed hphase hdelete
    · next hkeep => exact .remembered hphase (Bool.eq_false_iff.2 hkeep)
  case h_6 hphase => exact .idle (.inr hphase)

/-! ## Whole polls -/

/-- A step with what comes after it. -/
def PollStep.andThen (first later : PollStep) : PollStep where
  poller := later.poller
  values := first.values ++ later.values
  warnings := first.warnings ++ later.warnings
  removes := first.removes || later.removes

namespace Poller

variable {poller : Poller} {signature : FileSignature} (entry : FileEntry) (room : Option Nat)

/-- A poll is over behind a step that ends it. -/
theorem pollWithin_of_last {last : PollStep} (hstep : poller.step entry room = last)
    (hover : last.poller.phase = .looking ∨ last.poller.phase = .ended) (fuel : Nat) :
    pollWithin entry (fuel + 1) room poller = last := by
  rw [pollWithin, hstep]
  rcases hover with hphase | hphase <;> simp only [hphase]

/-- A poll goes on behind a step in the midst of it. -/
theorem pollWithin_of_step {first : PollStep} (hstep : poller.step entry room = first)
    (hlooking : first.poller.phase ≠ .looking) (hended : first.poller.phase ≠ .ended)
    (fuel : Nat) :
    pollWithin entry (fuel + 1) room poller =
      first.andThen
        (pollWithin entry fuel (room.map (· - first.values.length)) first.poller) := by
  rw [pollWithin, hstep]
  dsimp only
  split
  · next hphase => exact absurd hphase hlooking
  · next hphase => exact absurd hphase hended
  · rfl

/-- A step that only takes the poll further leaves the rest of it to be done. -/
theorem pollWithin_of_advance {next : Poller} (hstep : poller.step entry room = { poller := next })
    (hlooking : next.phase ≠ .looking) (hended : next.phase ≠ .ended) (fuel : Nat) :
    pollWithin entry (fuel + 1) room poller = pollWithin entry fuel room next := by
  rw [pollWithin_of_step entry room hstep hlooking hended]
  simp only [List.length_nil, Nat.sub_zero, Option.map_id']
  rfl

/-- What a poll does that has forwarded the lines of the file: the source ends if nobody takes
records any more, and otherwise the file is removed or its signature remembered. -/
def delivered (poller : Poller) (entry : FileEntry) (signature : FileSignature)
    (forwarded : Lines.Forwarded) : PollStep where
  poller :=
    if forwarded.stopped then poller.inPhase .ended
    else if poller.deleteOnSuccess then poller.inPhase .looking
    else { poller with dispatched := some signature, phase := .looking }
  values := forwarded.values
  warnings := forwarded.warnings ++
    if !forwarded.stopped && poller.deleteOnSuccess && !entry.isRemovable then [removeWarning]
    else []
  removes := !forwarded.stopped && poller.deleteOnSuccess

theorem pollWithin_finishing (hphase : poller.phase = .finishing signature) (fuel : Nat) :
    pollWithin entry (fuel + 1) room poller = poller.delivered entry signature {} := by
  have hstep : poller.step entry room = poller.delivered entry signature {} := by
    cases hdelete : poller.deleteOnSuccess <;> cases hremovable : entry.isRemovable <;>
      simp [step, delivered, hphase, hdelete, hremovable]
  refine pollWithin_of_last entry room hstep (.inl ?_) fuel
  simp only [delivered, Bool.false_eq_true, if_false]
  split <;> rfl

/-- A poll that is about to send lines does what forwarding them does. -/
theorem pollWithin_sending {lines : List (List UInt8)}
    (hphase : poller.phase = .sending signature lines) :
    pollWithin entry (lines.length + 2) room poller =
      poller.delivered entry signature (Lines.forward room false lines) := by
  -- Every step deals with one line, and one that sends a record leaves room for one less.
  induction lines generalizing poller room with
  | nil =>
      have hstep : poller.step entry room =
          { poller := poller.inPhase (.finishing signature) } := by
        simp [step, hphase]
      rw [pollWithin_of_advance entry room hstep nofun nofun, pollWithin_finishing entry _ rfl]
      rfl
  | cons line rest ih =>
      rw [Lines.forward, List.length_cons]
      cases hfate : Lines.fate room line with
      | skipped warning =>
          have hstep : poller.step entry room =
              { poller := poller.inPhase (.sending signature rest)
                warnings := warning.toList } := by
            simp [step, hphase, hfate]
          rw [pollWithin_of_step entry room hstep nofun nofun, ih _ rfl]
          simp only [List.length_nil, Nat.sub_zero, Option.map_id', PollStep.andThen, delivered,
            List.append_assoc]
          rfl
      | sent value =>
          have hstep : poller.step entry room =
              { poller := poller.inPhase (.sending signature rest), values := [value] } := by
            simp [step, hphase, hfate]
          rw [pollWithin_of_step entry room hstep nofun nofun, ih _ rfl]
          rfl
      | unreadable =>
          have hstep : poller.step entry room =
              { poller := poller.inPhase (.finishing signature)
                warnings := [Lines.unreadableWarning] } := by
            simp [step, hphase, hfate]
          rw [pollWithin_of_step entry room hstep nofun nofun, pollWithin_finishing entry _ rfl]
          rfl
      | refused =>
          have hstep : poller.step entry room = { poller := poller.inPhase .ended } := by
            simp [step, hphase, hfate]
          rw [pollWithin_of_last entry room hstep (.inr rfl)]
          rfl

/-- A poll that is about to read a file forwards its lines, unless it is blank. -/
theorem pollWithin_reading (hphase : poller.phase = .reading signature) :
    pollWithin entry (((entry.content?.map Lines.all).getD []).length + 3) room poller =
      match entry.content? with
      | none => { poller := poller.inPhase .looking, warnings := [readWarning] }
      | some bytes =>
          if bytes.all Text.isBlankByte then { poller := poller.inPhase .looking }
          else poller.delivered entry signature (Lines.forward room false (Lines.all bytes)) := by
  cases hcontent : entry.content? with
  | none =>
      have hstep : poller.step entry room =
          { poller := poller.inPhase .looking, warnings := [readWarning] } := by
        simp [step, hphase, hcontent]
      exact pollWithin_of_last entry room hstep (.inl rfl) _
  | some bytes =>
      dsimp only
      split
      · next hblank =>
          have hstep : poller.step entry room = { poller := poller.inPhase .looking } := by
            simp only [step, hphase, hcontent, hblank, if_true]
          exact pollWithin_of_last entry room hstep (.inl rfl) _
      · next hblank =>
          have hstep : poller.step entry room =
              { poller := poller.inPhase (.sending signature (Lines.all bytes)) } := by
            simp only [step, hphase, hcontent, if_neg hblank]
          rw [Option.map_some, Option.getD_some,
            pollWithin_of_advance entry room hstep nofun nofun, pollWithin_sending entry room rfl]
          rfl

/-- What a whole poll does while nothing else changes the file: it forwards the lines of a
regular file that it does not skip and that is not blank. -/
theorem poll_eq (hphase : poller.phase = .looking) :
    poller.poll entry room = match entry with
      | .absent => { poller }
      | .special => { poller, warnings := [specialWarning] }
      | .regular file =>
          if poller.skips file.signature then { poller }
          else match file.content with
            | none => { poller, warnings := [readWarning] }
            | some bytes =>
                if bytes.all Text.isBlankByte then { poller }
                else poller.delivered entry file.signature
                  (Lines.forward room false (Lines.all bytes)) := by
  rw [poll, stepsLeft, hphase]
  cases entry with
  | absent =>
      have hstep : poller.step .absent room = { poller } := by simp only [step, hphase]
      exact pollWithin_of_last _ room hstep (.inl hphase) _
  | special =>
      have hstep : poller.step .special room = { poller, warnings := [specialWarning] } := by
        simp only [step, hphase]
      exact pollWithin_of_last _ room hstep (.inl hphase) _
  | regular file =>
      dsimp only
      split
      · next hskips =>
          have hstep : poller.step (.regular file) room = { poller } := by
            simp only [step, hphase, hskips, if_true]
          exact pollWithin_of_last _ room hstep (.inl hphase) _
      · next hdiffers =>
          have hback : (poller.inPhase (.reading file.signature)).inPhase .looking = poller := by
            simp only [inPhase, ← hphase]
          have hstep : poller.step (.regular file) room =
              { poller := poller.inPhase (.reading file.signature) } := by
            simp only [step, hphase, if_neg hdiffers]
          rw [pollWithin_of_advance _ room hstep nofun nofun, pollWithin_reading _ room rfl, hback]
          rfl

end Poller

end LivePage
