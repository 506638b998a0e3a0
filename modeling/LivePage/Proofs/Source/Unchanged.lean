import Mathlib.Data.List.Induction
import LivePage.Proofs.Source.Forwarding
import LivePage.Proofs.Source.Polling

/-!
# Unchanged files

A file source that leaves the file where it is, beside somebody who changes the file at any
moment, also between two steps of a poll.  The source remembers the signature that the file
had when the poll began, and only if all lines were forwarded.  So if no two states of the file
have one signature, a file that is skipped as unchanged is the one that was forwarded last.
-/

namespace LivePage

/-- The signature of a regular file. -/
def FileEntry.signature? : FileEntry → Option FileSignature
  | regular file => some file.signature
  | _ => none

/-- How forwarding comes to an end. -/
inductive Ending where
  /-- There are no more lines, or the next one cannot be read. -/
  | eof
  /-- Nobody takes records any more, or the source was told to stop. -/
  | stopped
deriving DecidableEq

namespace PollPhase

/-- The signature that the file had when the poll began. -/
def signature? : PollPhase → Option FileSignature
  | reading signature => some signature
  | sending signature _ => some signature
  | finishing signature => some signature
  | _ => none

/-- How forwarding has ended behind a step in which a line was to be forwarded. -/
def ending? : PollPhase → Option Ending
  | finishing _ => some .eof
  | ended => some .stopped
  | _ => none

end PollPhase

/-- Some bytes that are forwarded. -/
structure Forwarding where
  bytes : List UInt8
  /-- The records that were sent, in order. -/
  values : List Json := []
  /-- How it has ended, if it has. -/
  ending : Option Ending := none

/-- All records of some bytes were sent, and no line is left. -/
def Forwarding.complete (bytes : List UInt8) : Forwarding where
  bytes := bytes
  values := Lines.due bytes
  ending := some .eof

/-- A file that a source polls and leaves where it is. -/
structure Lookout where
  entry : FileEntry
  poller : Poller := { deleteOnSuccess := false }
  /-- What the source forwards, or else what it forwarded last. -/
  latest : Option Forwarding := none

namespace Lookout

/-- One move of the source, or a change of the file. -/
inductive Move where
  /-- The file is changed: this is what stands at its path now. -/
  | put (entry : FileEntry)
  /-- The source does a step while the receiver has room for some number of records, or for
  any. -/
  | step (room : Option Nat)
  /-- The source does a step in which it cannot get at the file, whatever stands there. -/
  | miss (room : Option Nat)
  /-- The source is told to stop. -/
  | stop

/-- The signature that a change gives to the file. -/
def Move.signature? : Move → Option FileSignature
  | put entry => entry.signature?
  | _ => none

/-- The signatures that a file has had behind some moves, one for each of its states. -/
def signatures (entry : FileEntry) (moves : List Move) : List FileSignature :=
  entry.signature?.toList ++ moves.filterMap Move.signature?

/-- What is forwarded last behind a step of a poll that saw an entry.  Forwarding begins when
lines were read. -/
def latestBehind (lookout : Lookout) (seen : FileEntry) (step : PollStep) : Option Forwarding :=
  match lookout.poller.phase, step.poller.phase with
  | .reading _, .sending _ _ => seen.content?.map fun bytes => { bytes }
  | .sending _ _, phase =>
      lookout.latest.map fun forwarding =>
        { forwarding with values := forwarding.values ++ step.values, ending := phase.ending? }
  | _, _ => lookout.latest

/-- The source does a step in which it sees an entry. -/
def pollStep (lookout : Lookout) (seen : FileEntry) (room : Option Nat) : Lookout :=
  let step := lookout.poller.step seen room
  { lookout with poller := step.poller, latest := lookout.latestBehind seen step }

/-- The source stops; lines that it has not forwarded are left. -/
def stopped (lookout : Lookout) : Lookout :=
  let step : PollStep := { poller := lookout.poller.inPhase .ended }
  { lookout with poller := step.poller, latest := lookout.latestBehind lookout.entry step }

/-- The file and its source behind one move. -/
def act (lookout : Lookout) : Move → Lookout
  | .put entry => { lookout with entry }
  | .step room => lookout.pollStep lookout.entry room
  | .miss room => lookout.pollStep .absent room
  | .stop => lookout.stopped

/-- The file and its source behind some moves. -/
def play (lookout : Lookout) (moves : List Move) : Lookout :=
  moves.foldl act lookout

/-- The source looks at a file and skips it as unchanged. -/
def Skips (lookout : Lookout) : Prop :=
  lookout.poller.phase = .looking ∧
    ∃ signature, lookout.entry.signature? = some signature ∧ lookout.poller.skips signature = true

/-- If a signature is that of the file, some bytes are its content. -/
def Holds (lookout : Lookout) (signature : FileSignature) (bytes : List UInt8) : Prop :=
  lookout.entry.signature? = some signature → lookout.entry.content? = some bytes

/-- What the source has forwarded of the file, if the file has had some signatures. -/
structure Sound (known : List FileSignature) (lookout : Lookout) : Prop where
  keeps : lookout.poller.deleteOnSuccess = false
  own : ∀ signature, lookout.entry.signature? = some signature → signature ∈ known
  polled : ∀ signature, lookout.poller.phase.signature? = some signature → signature ∈ known
  dispatched : ∀ signature, lookout.poller.dispatched = some signature → signature ∈ known
  /-- A poll goes on only if the file is not the one that is remembered. -/
  differs : ∀ signature, lookout.poller.phase.signature? ≠ none →
    lookout.poller.dispatched = some signature → lookout.entry.signature? ≠ some signature
  sending : ∀ signature lines, lookout.poller.phase = .sending signature lines →
    ∃ bytes handled, Lines.all bytes = handled ++ lines ∧
      (∀ line ∈ handled, Lines.isReadable line = true) ∧
      lookout.latest = some { bytes, values := Lines.records handled } ∧
      lookout.Holds signature bytes
  finishing : ∀ signature, lookout.poller.phase = .finishing signature →
    ∃ bytes, lookout.latest = some (.complete bytes) ∧ lookout.Holds signature bytes
  remembered : ∀ signature, lookout.poller.dispatched = some signature →
    lookout.entry.signature? = some signature →
    ∃ bytes, lookout.entry.content? = some bytes ∧ lookout.latest = some (.complete bytes)

variable {known : List FileSignature} {lookout : Lookout}

theorem sound_fresh (entry : FileEntry) : Sound entry.signature?.toList { entry } where
  keeps := rfl
  own := fun _ hsignature => by simp [hsignature]
  polled := nofun
  dispatched := nofun
  differs := nofun
  sending := nofun
  finishing := nofun
  remembered := nofun

/-- A change gives the file a signature that is not among those that are known. -/
theorem Sound.put (hsound : Sound known lookout) (entry : FileEntry)
    (hnew : (known ++ entry.signature?.toList).Nodup) :
    Sound (known ++ entry.signature?.toList) { lookout with entry } := by
  have hother : ∀ signature ∈ known, entry.signature? ≠ some signature := by
    intro signature hknown hsame
    exact (List.nodup_append.1 hnew).2.2 signature hknown signature (by simp [hsame]) rfl
  refine ⟨hsound.keeps, fun signature hown => ?_, fun signature hpolled => ?_,
    fun signature hdispatched => ?_, fun signature _ hdispatched => ?_,
    fun signature lines hphase => ?_, fun signature hphase => ?_,
    fun signature hdispatched hsame => ?_⟩
  · exact List.mem_append_right _ (by simpa using hown)
  · exact List.mem_append_left _ (hsound.polled signature hpolled)
  · exact List.mem_append_left _ (hsound.dispatched signature hdispatched)
  · exact hother signature (hsound.dispatched signature hdispatched)
  · obtain ⟨bytes, handled, hall, hreadable, hlatest, -⟩ := hsound.sending signature lines hphase
    have hpolled := hsound.polled signature (by rw [hphase]; rfl)
    exact ⟨bytes, handled, hall, hreadable, hlatest, fun hsame => absurd hsame (hother _ hpolled)⟩
  · obtain ⟨bytes, hlatest, -⟩ := hsound.finishing signature hphase
    have hpolled := hsound.polled signature (by rw [hphase]; rfl)
    exact ⟨bytes, hlatest, fun hsame => absurd hsame (hother _ hpolled)⟩
  · exact absurd hsame (hother signature (hsound.dispatched signature hdispatched))

/-- A poll under way comes to nothing, or the source has stopped.  Only the end of a poll
changes what is remembered. -/
theorem Sound.leave (hsound : Sound known lookout) {phase : PollPhase}
    (hphase : phase.signature? = none) {latest : Option Forwarding}
    (hlatest : lookout.poller.phase.signature? = none → latest = lookout.latest) :
    Sound known { lookout with poller := lookout.poller.inPhase phase, latest } where
  keeps := hsound.keeps
  own := hsound.own
  polled := fun signature hpolled => absurd (hphase.symm.trans hpolled) nofun
  dispatched := hsound.dispatched
  differs := fun _ hpolled => absurd hphase hpolled
  sending := fun _ _ heq => by
    rw [show phase = _ from heq] at hphase
    cases hphase
  finishing := fun _ heq => by
    rw [show phase = _ from heq] at hphase
    cases hphase
  remembered := fun signature hdispatched hsame => by
    by_cases hidle : lookout.poller.phase.signature? = none
    · rw [hlatest hidle]
      exact hsound.remembered signature hdispatched hsame
    · exact absurd hsame (hsound.differs signature hidle hdispatched)

/-- A poll goes on with the file that it has looked at. -/
theorem Sound.proceed (hsound : Sound known lookout) {phase : PollPhase}
    {signature : FileSignature} (hbefore : lookout.poller.phase.signature? = some signature)
    (hphase : phase.signature? = some signature) {latest : Option Forwarding}
    (hsending : ∀ other lines, phase = .sending other lines →
      ∃ bytes handled, Lines.all bytes = handled ++ lines ∧
        (∀ line ∈ handled, Lines.isReadable line = true) ∧
        latest = some { bytes, values := Lines.records handled } ∧ lookout.Holds other bytes)
    (hfinishing : ∀ other, phase = .finishing other →
      ∃ bytes, latest = some (.complete bytes) ∧ lookout.Holds other bytes) :
    Sound known { lookout with poller := lookout.poller.inPhase phase, latest } where
  keeps := hsound.keeps
  own := hsound.own
  polled := fun other hpolled => by
    have hsame : signature = other := Option.some.inj (hphase.symm.trans hpolled)
    exact hsame ▸ hsound.polled signature hbefore
  dispatched := hsound.dispatched
  differs := fun other _ hdispatched =>
    hsound.differs other (by rw [hbefore]; exact Option.some_ne_none _) hdispatched
  sending := hsending
  finishing := hfinishing
  remembered := fun other hdispatched hsame =>
    absurd hsame
      (hsound.differs other (by rw [hbefore]; exact Option.some_ne_none _) hdispatched)

/-- A poll begins with a file that is not the one that is remembered. -/
theorem Sound.look (hsound : Sound known lookout) {signature : FileSignature}
    (hentry : lookout.entry.signature? = some signature)
    (hskips : lookout.poller.skips signature = false) :
    Sound known { lookout with poller := lookout.poller.inPhase (.reading signature) } where
  keeps := hsound.keeps
  own := hsound.own
  polled := fun other hpolled => by
    obtain rfl := Option.some.inj hpolled
    exact hsound.own _ hentry
  dispatched := hsound.dispatched
  differs := fun other _ hdispatched hsame => by
    obtain rfl : signature = other := Option.some.inj (hentry.symm.trans hsame)
    have hremembered : lookout.poller.dispatched = some signature := hdispatched
    rw [Poller.skips, hsound.keeps, hremembered] at hskips
    simp at hskips
  sending := nofun
  finishing := nofun
  remembered := hsound.remembered

/-- A file all of whose lines were forwarded is remembered as it was when the poll began. -/
theorem Sound.remember (hsound : Sound known lookout) {signature : FileSignature}
    (hphase : lookout.poller.phase = .finishing signature) :
    Sound known { lookout with
      poller := { lookout.poller with dispatched := some signature, phase := .looking } } where
  keeps := hsound.keeps
  own := hsound.own
  polled := nofun
  dispatched := fun other hdispatched => by
    obtain rfl := Option.some.inj hdispatched
    exact hsound.polled _ (by rw [hphase]; rfl)
  differs := nofun
  sending := nofun
  finishing := nofun
  remembered := fun other hdispatched hsame => by
    obtain rfl := Option.some.inj hdispatched
    obtain ⟨bytes, hlatest, hholds⟩ := hsound.finishing _ hphase
    exact ⟨bytes, hholds hsame, hlatest⟩

/-- Forwarding begins with the bytes that the file has when it is read. -/
theorem Sound.read (hsound : Sound known lookout) {signature : FileSignature} {bytes : List UInt8}
    (hphase : lookout.poller.phase = .reading signature)
    (hcontent : lookout.entry.content? = some bytes) :
    Sound known { lookout with
      poller := lookout.poller.inPhase (.sending signature (Lines.all bytes))
      latest := some { bytes } } := by
  refine hsound.proceed (by rw [hphase]; rfl) rfl (fun other lines heq => ?_) nofun
  obtain ⟨rfl, rfl⟩ := PollPhase.sending.inj heq
  exact ⟨bytes, [], rfl, nofun, rfl, fun _ => hcontent⟩

/-- A line is dealt with. -/
theorem Sound.forward (hsound : Sound known lookout) {signature : FileSignature}
    {line : List UInt8} {rest : List (List UInt8)}
    (hphase : lookout.poller.phase = .sending signature (line :: rest))
    (hreadable : Lines.isReadable line = true) :
    Sound known { lookout with
      poller := lookout.poller.inPhase (.sending signature rest)
      latest := lookout.latest.map fun forwarding => { forwarding with
        values := forwarding.values ++ Lines.records [line], ending := none } } := by
  obtain ⟨bytes, handled, hall, hhandled, hlatest, hholds⟩ := hsound.sending _ _ hphase
  refine hsound.proceed (by rw [hphase]; rfl) rfl (fun other lines heq => ?_) nofun
  obtain ⟨rfl, rfl⟩ := PollPhase.sending.inj heq
  refine ⟨bytes, handled ++ [line], by simp [hall], ?_, ?_, hholds⟩
  · simpa [or_imp, forall_and] using ⟨hhandled, hreadable⟩
  · rw [hlatest, Lines.records_append]
    rfl

/-- No line is left, or the next one cannot be read: all that was due was sent. -/
theorem Sound.cut (hsound : Sound known lookout) {signature : FileSignature}
    {lines : List (List UInt8)} (hphase : lookout.poller.phase = .sending signature lines)
    (hcut : lines.takeWhile Lines.isReadable = []) :
    Sound known { lookout with
      poller := lookout.poller.inPhase (.finishing signature)
      latest := lookout.latest.map fun forwarding =>
        { forwarding with values := forwarding.values ++ [], ending := some .eof } } := by
  obtain ⟨bytes, handled, hall, hhandled, hlatest, hholds⟩ := hsound.sending _ _ hphase
  have hdue : Lines.due bytes = Lines.records handled := by
    rw [Lines.due_eq, hall, List.takeWhile_append_of_pos hhandled, hcut, List.append_nil]
  refine hsound.proceed (by rw [hphase]; rfl) rfl nofun fun other heq => ?_
  obtain rfl := PollPhase.finishing.inj heq
  refine ⟨bytes, ?_, hholds⟩
  rw [hlatest, Forwarding.complete, hdue, Option.map_some, List.append_nil]

/-- A step of the source keeps track of what was forwarded. -/
theorem Sound.pollStep (hsound : Sound known lookout) {seen : FileEntry}
    (hseen : seen = lookout.entry ∨ seen = .absent) (room : Option Nat) :
    Sound known (lookout.pollStep seen room) := by
  have hturn := lookout.poller.turn_step seen room
  rw [Lookout.pollStep]
  generalize lookout.poller.step seen room = step at hturn
  rw [latestBehind]
  cases hturn with
  | idle hphase =>
      rcases hphase with hphase | hphase <;> rw [hphase] <;> exact hsound
  | @looked file hphase hfile hskips =>
      have hentry : seen = lookout.entry := hseen.resolve_right (by rw [hfile]; nofun)
      rw [hphase]
      exact hsound.look (by rw [← hentry, hfile]; rfl) hskips
  | passed hphase =>
      refine hsound.leave rfl fun hidle => ?_
      rw [hphase] at hidle
      cases hidle
  | @read signature bytes hphase hcontent =>
      have hentry : seen = lookout.entry :=
        hseen.resolve_right fun habsent => by rw [habsent] at hcontent; cases hcontent
      rw [hphase, hcontent]
      exact hsound.read hphase (hentry ▸ hcontent)
  | forwarded hphase hreadable =>
      rw [hphase]
      exact hsound.forward hphase hreadable
  | cut hphase hcut =>
      rw [hphase]
      exact hsound.cut hphase hcut
  | refused hphase =>
      refine hsound.leave rfl fun hidle => ?_
      rw [hphase] at hidle
      cases hidle
  | removed hphase hdelete =>
      rw [hsound.keeps] at hdelete
      cases hdelete
  | remembered hphase =>
      rw [hphase]
      exact hsound.remember hphase

/-- Whatever happens next, it is known what was forwarded. -/
theorem Sound.act (hsound : Sound known lookout) (move : Move)
    (hnew : (known ++ move.signature?.toList).Nodup) :
    Sound (known ++ move.signature?.toList) (lookout.act move) := by
  have hsame (hnone : move.signature? = none) : known ++ move.signature?.toList = known := by
    rw [hnone, Option.toList_none, List.append_nil]
  cases move with
  | put entry => exact hsound.put entry hnew
  | step room =>
      rw [hsame rfl]
      exact hsound.pollStep (.inl rfl) room
  | miss room =>
      rw [hsame rfl]
      exact hsound.pollStep (.inr rfl) room
  | stop =>
      rw [hsame rfl]
      refine hsound.leave rfl fun hidle => ?_
      cases hphase : lookout.poller.phase with
      | looking | ended => rw [latestBehind, hphase]
      | reading | sending | finishing =>
          rw [hphase] at hidle
          cases hidle

theorem signatures_concat (entry : FileEntry) (moves : List Move) (move : Move) :
    signatures entry (moves ++ [move]) = signatures entry moves ++ move.signature?.toList := by
  rw [signatures, signatures, List.filterMap_append, ← List.append_assoc]
  cases hsignature : move.signature? <;> simp [hsignature]

theorem sound_play (entry : FileEntry) (moves : List Move)
    (hnew : (signatures entry moves).Nodup) :
    Sound (signatures entry moves) (({ entry } : Lookout).play moves) := by
  induction moves using List.reverseRecOn with
  | nil =>
      rw [signatures, List.filterMap_nil, List.append_nil]
      exact sound_fresh entry
  | append_singleton moves move ih =>
      have hplay : ({ entry } : Lookout).play (moves ++ [move]) =
          (({ entry } : Lookout).play moves).act move := by
        rw [play, List.foldl_append]
        rfl
      rw [signatures_concat] at hnew ⊢
      rw [hplay]
      exact (ih (List.nodup_append.1 hnew).1).act move hnew

/-- What a source skips it has forwarded.  If every change gives the file a signature that it
never had before, then whenever the source skips the file as unchanged, the bytes that it
forwarded last are those that the file holds now: it sent all their records, up to the first
line that is not UTF-8, and came to the end of them.  It does not matter whether the file was
changed between the steps of a poll, could not be reached or was blank. -/
theorem skips_forwarded (entry : FileEntry) (moves : List Move)
    (hnew : (signatures entry moves).Nodup)
    (hskips : (({ entry } : Lookout).play moves).Skips) :
    ∃ bytes, (({ entry } : Lookout).play moves).entry.content? = some bytes ∧
      (({ entry } : Lookout).play moves).latest =
        some { bytes, values := Lines.due bytes, ending := some .eof } := by
  have hsound := sound_play entry moves hnew
  generalize ({ entry } : Lookout).play moves = lookout at hsound hskips
  obtain ⟨-, signature, hentry, hskipped⟩ := hskips
  have hdispatched : lookout.poller.dispatched = some signature := by
    simpa [Poller.skips, hsound.keeps] using hskipped
  exact hsound.remembered signature hdispatched hentry

/-- A file that is changed between the steps of its first poll, is blank in the second one,
and cannot be reached in the next two. -/
def changes : List Move :=
  [.put (.ofBytes [0x31] 1000), .step none, .put (.ofBytes [0x31, 0x0A, 0x32] 2500),
    .step none, .step none, .put (.ofBytes [0x20] 3000), .step none, .step none, .step none,
    .step none, .step none, .put (.ofBytes [0x33, 0x0A, 0xFF, 0x0A, 0x34] 4000), .miss none,
    .step none, .miss none, .step none, .step none, .step none, .step none, .step none]

/-- The file is skipped in its last state, of which one record was sent. -/
theorem skips_forwarded_of_changes :
    let lookout := ({ entry := .absent } : Lookout).play changes
    (signatures .absent changes).Nodup ∧ lookout.Skips ∧
      lookout.entry.content? = some [0x33, 0x0A, 0xFF, 0x0A, 0x34] ∧
      lookout.latest = some {
        bytes := [0x33, 0x0A, 0xFF, 0x0A, 0x34]
        values := [.ofNat 3]
        ending := some .eof } := by
  intro lookout
  have hnew : (signatures .absent changes).Nodup := by decide
  have hskips : lookout.Skips := ⟨rfl, _, rfl, rfl⟩
  have hcontent : lookout.entry.content? = some [0x33, 0x0A, 0xFF, 0x0A, 0x34] := rfl
  obtain ⟨bytes, hbytes, hlatest⟩ := skips_forwarded .absent changes hnew hskips
  obtain rfl := Option.some.inj (hcontent.symm.trans hbytes)
  exact ⟨hnew, hskips, hcontent, hlatest⟩

end Lookout

end LivePage
