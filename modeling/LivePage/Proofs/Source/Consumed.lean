import Mathlib.Data.List.Induction
import LivePage.Proofs.Source.Polling

/-!
# Consumed files

A file source that removes what it has sent, beside a producer that appends to the file.
Between any two steps of a poll the producer may append lines, and the source may be told to
stop.  When the source removes the file, it has sent the records that it read, up to the
first line that is not UTF-8.  So the records that are lost with the file are those behind
such a line and those that were appended after the file was read, and no others.
-/

namespace LivePage

/-- Nothing is left to be sent or to be finished. -/
def PollPhase.isCalm : PollPhase → Bool
  | sending .. => false
  | finishing _ => false
  | _ => true

/-- What a step of a poll can do. -/
inductive Poller.Course (poller : Poller) (entry : FileEntry) : PollStep → Prop where
  /-- The poll has not begun to send, or it is over; only its end removes the file. -/
  | calm {step : PollStep} :
      step.poller.phase.isCalm = true →
      (step.removes = true → ∃ signature, poller.phase = .finishing signature) →
      Course poller entry step
  | read {signature : FileSignature} {bytes : List UInt8} :
      poller.phase = .reading signature → entry.content? = some bytes →
      Course poller entry { poller := poller.inPhase (.sending signature (Lines.all bytes)) }
  /-- A line is dealt with, and its record is sent if it has one. -/
  | forwarded {signature : FileSignature} {line : List UInt8} {rest : List (List UInt8)}
      {warnings : List String} :
      poller.phase = .sending signature (line :: rest) → Lines.isReadable line = true →
      Course poller entry {
        poller := poller.inPhase (.sending signature rest)
        values := Lines.records [line]
        warnings }
  /-- There are no more lines, or the next one cannot be read. -/
  | cut {signature : FileSignature} {lines : List (List UInt8)} {warnings : List String} :
      poller.phase = .sending signature lines → lines.takeWhile Lines.isReadable = [] →
      Course poller entry { poller := poller.inPhase (.finishing signature), warnings }

theorem Poller.course_step (poller : Poller) (entry : FileEntry) (room : Option Nat) :
    poller.Course entry (poller.step entry room) := by
  have hturn := poller.turn_step entry room
  generalize poller.step entry room = step at hturn
  cases hturn with
  | idle hphase =>
      refine .calm ?_ nofun
      rcases hphase with hphase | hphase
      · exact hphase ▸ rfl
      · exact hphase ▸ rfl
  | looked | passed | refused | remembered => exact .calm rfl nofun
  | removed hphase => exact .calm rfl fun _ => ⟨_, hphase⟩
  | read hphase hcontent => exact .read hphase hcontent
  | forwarded hphase hreadable => exact .forwarded hphase hreadable
  | cut hphase hcut => exact .cut hphase hcut

/-- The entry after a producer opened it and appended some bytes, at a time in
milliseconds. -/
def FileEntry.appended (entry : FileEntry) (bytes : List UInt8) (changed : Nat) : FileEntry :=
  match entry with
  | .absent => .ofBytes bytes changed
  | .special => .special
  | .regular file =>
      .regular { file with
        signature := {
          length := file.signature.length + bytes.length
          seconds := changed / 1000 }
        content := file.content.map (· ++ bytes) }

theorem FileEntry.content?_appended {entry : FileEntry} {bytes : List UInt8}
    (hcontent : entry.content? = some bytes) (more : List UInt8) (changed : Nat) :
    (entry.appended more changed).content? = some (bytes ++ more) := by
  cases entry with
  | absent | special => cases hcontent
  | regular file => exact congrArg (Option.map (· ++ more)) hcontent

/-- A file with a source that polls it. -/
structure Feed where
  entry : FileEntry
  poller : Poller
  /-- All records that were sent, in order. -/
  sent : List Json := []

namespace Feed

/-- One move of the producer or of the source. -/
inductive Move where
  /-- The producer appends some lines at a time in milliseconds. -/
  | append (lines : List (List UInt8)) (changed : Nat)
  /-- The source does a step while the receiver has room for some number of records, or for
  any. -/
  | step (room : Option Nat)
  /-- The source is told to stop. -/
  | stop

/-- What a move puts behind the bytes of the file. -/
def Move.bytes : Move → List UInt8
  | append lines _ => lines.flatMap (· ++ [0x0A])
  | _ => []

/-- A source that removes files, before its first poll. -/
def fresh (entry : FileEntry) : Feed where
  entry := entry
  poller := { deleteOnSuccess := true }

/-- The feed after one move. -/
def act (feed : Feed) (move : Move) : Feed :=
  match move with
  | .append _ changed => { feed with entry := feed.entry.appended move.bytes changed }
  | .step room =>
      let step := feed.poller.step feed.entry room
      { entry := if step.removes then feed.entry.removed else feed.entry
        poller := step.poller
        sent := feed.sent ++ step.values }
  | .stop => { feed with poller := feed.poller.inPhase .ended }

/-- The feed after some moves. -/
def play (feed : Feed) (moves : List Move) : Feed :=
  moves.foldl act feed

/-- The source is about to read some bytes. -/
def IsReading (feed : Feed) (bytes : List UInt8) : Prop :=
  (∃ signature, feed.poller.phase = .reading signature) ∧ feed.entry.content? = some bytes

/-- The source has read some bytes and has dealt with some lines since, while the file has
only become longer. -/
def HasRead (start : Feed) (moves : List Move) (feed : Feed) (bytes : List UInt8)
    (handled : List (List UInt8)) : Prop :=
  ∃ before room after, moves = before ++ .step room :: after ∧
    (start.play before).IsReading bytes ∧
    feed.entry.content? = some (bytes ++ after.flatMap Move.bytes) ∧
    feed.sent = (start.play before).sent ++ Lines.records handled

/-- How far the source has come with what it read last. -/
structure Sound (start : Feed) (moves : List Move) (feed : Feed) : Prop where
  sending : ∀ signature lines, feed.poller.phase = .sending signature lines →
    ∃ bytes handled, HasRead start moves feed bytes handled ∧ Lines.all bytes = handled ++ lines ∧
      ∀ line ∈ handled, Lines.isReadable line = true
  finishing : ∀ signature, feed.poller.phase = .finishing signature →
    ∃ bytes, HasRead start moves feed bytes ((Lines.all bytes).takeWhile Lines.isReadable)

variable {start feed after : Feed} {moves : List Move} {bytes : List UInt8}
  {handled : List (List UInt8)}

/-- A move that appends to the file what it appends, and by which more lines are dealt
with. -/
theorem HasRead.act (hread : HasRead start moves feed bytes handled) (move : Move)
    {more : List (List UInt8)}
    (hcontent : ∀ bytes, feed.entry.content? = some bytes →
      after.entry.content? = some (bytes ++ move.bytes))
    (hsent : after.sent = feed.sent ++ Lines.records more) :
    HasRead start (moves ++ [move]) after bytes (handled ++ more) := by
  obtain ⟨before, room, behind, rfl, hreading, hbytes, hrecords⟩ := hread
  refine ⟨before, room, behind ++ [move], by simp, hreading, ?_, ?_⟩
  · rw [hcontent _ hbytes]
    simp
  · rw [hsent, hrecords, Lines.records_append, List.append_assoc]

/-- Where nothing is being sent there is nothing to keep track of. -/
theorem sound_of_isCalm (hcalm : feed.poller.phase.isCalm = true) : Sound start moves feed where
  sending := fun signature lines hphase => by
    rw [hphase] at hcalm
    cases hcalm
  finishing := fun signature hphase => by
    rw [hphase] at hcalm
    cases hcalm

/-- A step of the source keeps track of what was read. -/
theorem Sound.step (hsound : Sound start moves (start.play moves)) (room : Option Nat) :
    Sound start (moves ++ [.step room]) ((start.play moves).act (.step room)) := by
  generalize hfeed : start.play moves = feed at hsound ⊢
  have hcourse := feed.poller.course_step feed.entry room
  rw [act]
  generalize feed.poller.step feed.entry room = step at hcourse
  cases hcourse with
  | calm hcalm => exact sound_of_isCalm hcalm
  | @read signature bytes hphase hcontent =>
      refine ⟨fun other lines heq => ?_, nofun⟩
      obtain ⟨-, rfl⟩ := PollPhase.sending.inj heq
      refine ⟨bytes, [], ⟨moves, room, [], rfl, ?_, ?_, ?_⟩, rfl, by simp⟩
      · rw [hfeed]
        exact ⟨⟨signature, hphase⟩, hcontent⟩
      · simpa using hcontent
      · rw [hfeed]
        rfl
  | @forwarded signature line rest warnings hphase hreadable =>
      refine ⟨fun other lines heq => ?_, nofun⟩
      obtain ⟨-, rfl⟩ := PollPhase.sending.inj heq
      obtain ⟨bytes, handled, hread, hall, hhandled⟩ := hsound.sending _ _ hphase
      refine ⟨bytes, handled ++ [line], hread.act (.step room) (by simp [Move.bytes]) rfl, ?_, ?_⟩
      · simp [hall]
      · simpa [or_imp, forall_and] using ⟨hhandled, hreadable⟩
  | @cut signature lines warnings hphase hcut =>
      refine ⟨nofun, fun other heq => ?_⟩
      obtain ⟨bytes, handled, hread, hall, hhandled⟩ := hsound.sending _ _ hphase
      have htake : (Lines.all bytes).takeWhile Lines.isReadable = handled ++ [] := by
        rw [hall, List.takeWhile_append_of_pos hhandled, hcut]
      refine ⟨bytes, ?_⟩
      rw [htake]
      exact hread.act (.step room) (by simp [Move.bytes]) rfl

/-- Whatever the producer and the source do, it is known what was read. -/
theorem Sound.act (hsound : Sound start moves (start.play moves)) (move : Move) :
    Sound start (moves ++ [move]) ((start.play moves).act move) := by
  cases move with
  | step room => exact hsound.step room
  | stop => exact sound_of_isCalm rfl
  | append lines changed =>
      have hlonger {bytes : List UInt8} {handled : List (List UInt8)}
          (hread : HasRead start moves (start.play moves) bytes handled) :
          HasRead start (moves ++ [.append lines changed])
            ((start.play moves).act (.append lines changed)) bytes handled := by
        rw [← List.append_nil handled]
        refine hread.act _ (fun _ hcontent => ?_) (List.append_nil _).symm
        exact FileEntry.content?_appended hcontent _ changed
      refine ⟨fun signature rest hphase => ?_, fun signature hphase => ?_⟩
      · obtain ⟨bytes, handled, hread, hrest⟩ := hsound.sending signature rest hphase
        exact ⟨bytes, handled, hlonger hread, hrest⟩
      · obtain ⟨bytes, hread⟩ := hsound.finishing signature hphase
        exact ⟨bytes, hlonger hread⟩

theorem sound_play (entry : FileEntry) (moves : List Move) :
    Sound (fresh entry) moves ((fresh entry).play moves) := by
  induction moves using List.reverseRecOn with
  | nil => exact sound_of_isCalm rfl
  | append_singleton moves move ih =>
      have hplay : (fresh entry).play (moves ++ [move]) = ((fresh entry).play moves).act move := by
        rw [play, List.foldl_append]
        rfl
      rw [hplay]
      exact ih.act move

/-- A step by which a file disappears is the last one of its poll. -/
theorem finishing_of_removed {room : Option Nat} (hthere : feed.entry ≠ .absent)
    (hgone : (feed.act (.step room)).entry = .absent) :
    ∃ signature, feed.poller.phase = .finishing signature := by
  have hcourse := feed.poller.course_step feed.entry room
  rw [act] at hgone
  generalize feed.poller.step feed.entry room = step at hcourse hgone
  cases hcourse with
  | calm hcalm hremoves =>
      by_cases hstep : step.removes = true
      · exact hremoves hstep
      · exact absurd ((if_neg hstep).symm.trans hgone) hthere
  | read | forwarded | cut => exact absurd hgone hthere

/-- What is sent of a file before it is removed.  Whenever the source removes the file, what
stands in it is what the source has read and what was appended since.  Of what it has read
the source has sent all records up to the first line that is not UTF-8, once and in order,
and nothing else since then.  So if nothing was appended, or the file was not read in the
middle of a line, the records behind such a line and the appended ones are those that were
not sent. -/
theorem sent_before_removal (entry : FileEntry) (moves : List Move) (room : Option Nat)
    (hthere : ((fresh entry).play moves).entry ≠ .absent)
    (hgone : (((fresh entry).play moves).act (.step room)).entry = .absent) :
    ∃ before turn after bytes, moves = before ++ .step turn :: after ∧
      ((fresh entry).play before).IsReading bytes ∧
      let appended := after.flatMap Move.bytes
      let sent := Lines.records ((Lines.all bytes).takeWhile Lines.isReadable)
      let unread := Lines.records ((Lines.all bytes).dropWhile Lines.isReadable)
      ((fresh entry).play moves).entry.content? = some (bytes ++ appended) ∧
        ((fresh entry).play moves).sent = ((fresh entry).play before).sent ++ sent ∧
        (appended = [] ∨ (Lines.cut bytes).2 = [] →
          Lines.records (Lines.all (bytes ++ appended)) =
            sent ++ unread ++ Lines.records (Lines.all appended)) := by
  obtain ⟨signature, hphase⟩ := finishing_of_removed hthere hgone
  obtain ⟨bytes, before, turn, after, hmoves, hreading, hcontent, hsent⟩ :=
    (sound_play entry moves).finishing signature hphase
  refine ⟨before, turn, after, bytes, hmoves, hreading, hcontent, hsent, fun hwhole => ?_⟩
  have hall : Lines.all (bytes ++ after.flatMap Move.bytes) =
      Lines.all bytes ++ Lines.all (after.flatMap Move.bytes) := by
    rcases hwhole with hnone | hended
    · rw [hnone, List.append_nil, Lines.all_nil, List.append_nil]
    · exact Lines.all_append hended _
  have hread : Lines.records ((Lines.all bytes).takeWhile Lines.isReadable) ++
      Lines.records ((Lines.all bytes).dropWhile Lines.isReadable) =
        Lines.records (Lines.all bytes) := by
    rw [← Lines.records_append, List.takeWhile_append_dropWhile]
  rw [hall, Lines.records_append, hread]

/-- A file of three lines, of which the second is not UTF-8, and a fourth line that comes
while the first ones are sent. -/
def lateMoves : List Move :=
  [.append [[0x31], [0xFF], [0x32]] 0, .step none, .step none, .step none, .append [[0x33]] 5,
    .step none]

/-- The file is removed with four lines in it, and of the three records in these one was
sent. -/
theorem sent_before_removal_of_late_line :
    let feed := (fresh .absent).play lateMoves
    feed.entry ≠ .absent ∧ (feed.act (.step none)).entry = .absent ∧
      feed.sent = [.ofNat 1] ∧
      (feed.entry.content?.map fun bytes => Lines.records (Lines.all bytes)) =
        some [.ofNat 1, .ofNat 2, .ofNat 3] ∧
      ∃ bytes appended earlier, feed.entry.content? = some (bytes ++ appended) ∧
        feed.sent =
          earlier ++ Lines.records ((Lines.all bytes).takeWhile Lines.isReadable) := by
  intro feed
  have hthere : feed.entry ≠ .absent := nofun
  have hgone : (feed.act (.step none)).entry = .absent := rfl
  obtain ⟨before, turn, after, bytes, -, -, hcontent, hsent, -⟩ :=
    sent_before_removal .absent lateMoves none hthere hgone
  exact ⟨hthere, hgone, rfl, rfl, bytes, _, _, hcontent, hsent⟩

end Feed

end LivePage
