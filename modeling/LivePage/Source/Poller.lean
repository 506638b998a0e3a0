import LivePage.Page.Definition
import LivePage.Source.Lines

/-!
# Polled files

A file source looks at one path again and again.  A poll takes steps: it looks
at the file, reads it, sends its records one after the other, and then either
removes the file or remembers its signature, so that it is not sent again before
it changes.  The steps are apart because the file may change between them.
-/

namespace LivePage

/-- What tells two states of a file apart: its length and the second of its last
change. -/
structure FileSignature where
  length : Nat
  seconds : Nat
deriving DecidableEq, Repr

/-- A regular file. -/
structure RegularFile where
  signature : FileSignature
  /-- The bytes; none if they cannot be read. -/
  content : Option (List UInt8)
  removable : Bool := true
deriving DecidableEq, Repr

/-- What stands at a path. -/
inductive FileEntry where
  | absent
  /-- Something that is no regular file. -/
  | special
  | regular (file : RegularFile)
deriving DecidableEq, Repr

namespace FileEntry

/-- The file with some bytes, changed at a time in milliseconds. -/
def ofBytes (bytes : List UInt8) (changed : Nat) : FileEntry :=
  .regular {
    signature := { length := bytes.length, seconds := changed / 1000 }
    content := some bytes }

/-- The bytes of a file that can be read. -/
def content? : FileEntry → Option (List UInt8)
  | regular file => file.content
  | _ => none

/-- Whether the entry is a file that can be removed. -/
def isRemovable : FileEntry → Bool
  | regular file => file.removable
  | _ => false

/-- What is left after an attempt to remove the entry. -/
def removed (entry : FileEntry) : FileEntry :=
  if entry.isRemovable then absent else entry

end FileEntry

/-- A file that is polled. -/
structure FileSource where
  path : String
  pollMs : Nat
  deleteOnSuccess : Bool
deriving DecidableEq, Repr, Inhabited

namespace FileSource

/-- The time between polls unless another is given. -/
def usualPollMs : Nat := 100

/-- The shortest time between polls. -/
def leastPollMs : Nat := 10

def ofOptions (path : String) (pollMs : Option Nat) (deleteOnSuccess : Option Bool) :
    FileSource where
  path := path
  pollMs := max (pollMs.getD usualPollMs) leastPollMs
  deleteOnSuccess := deleteOnSuccess.getD false

end FileSource

/-- Where a poll stands. -/
inductive PollPhase where
  /-- About to look at the file. -/
  | looking
  /-- About to read the file that had this signature. -/
  | reading (signature : FileSignature)
  /-- About to forward these lines. -/
  | sending (signature : FileSignature) (lines : List (List UInt8))
  /-- About to finish: no more lines are forwarded. -/
  | finishing (signature : FileSignature)
  /-- Nobody takes records any more. -/
  | ended
deriving DecidableEq, Repr

/-- A polled file and what is remembered of it. -/
structure Poller where
  deleteOnSuccess : Bool
  /-- The signature of the file that was sent most recently. -/
  dispatched : Option FileSignature := none
  phase : PollPhase := .looking
deriving DecidableEq, Repr

/-- What one step of a poll does. -/
structure PollStep where
  poller : Poller
  values : List Json := []
  warnings : List String := []
  /-- Whether it tries to remove the file. -/
  removes : Bool := false

namespace Poller

/-- The warning about a path at which no regular file stands. -/
def specialWarning : String := "Path exists but is not a regular file"

/-- The warning about a file that cannot be read. -/
def readWarning : String := "Failed to read file"

/-- The warning about a file that cannot be removed. -/
def removeWarning : String := "Failed to delete file after dispatch"

def inPhase (poller : Poller) (phase : PollPhase) : Poller :=
  { poller with phase }

/-- Whether a file with a signature is skipped. -/
def skips (poller : Poller) (signature : FileSignature) : Bool :=
  !poller.deleteOnSuccess && poller.dispatched == some signature

/-- Does one step of a poll on the entry as it is now; the receiver has room for
some number of records, or for any. -/
def step (poller : Poller) (entry : FileEntry) (room : Option Nat) : PollStep :=
  match poller.phase with
  | .looking =>
      match entry with
      | .absent => { poller }
      | .special => { poller, warnings := [specialWarning] }
      | .regular file =>
          if poller.skips file.signature then { poller }
          else { poller := poller.inPhase (.reading file.signature) }
  | .reading signature =>
      match entry.content? with
      | none => { poller := poller.inPhase .looking, warnings := [readWarning] }
      | some bytes =>
          if bytes.all Text.isBlankByte then { poller := poller.inPhase .looking }
          else { poller := poller.inPhase (.sending signature (Lines.all bytes)) }
  | .sending signature [] => { poller := poller.inPhase (.finishing signature) }
  | .sending signature (line :: rest) =>
      match Lines.fate room line with
      | .skipped warning =>
          { poller := poller.inPhase (.sending signature rest), warnings := warning.toList }
      | .sent value => { poller := poller.inPhase (.sending signature rest), values := [value] }
      | .unreadable =>
          { poller := poller.inPhase (.finishing signature)
            warnings := [Lines.unreadableWarning] }
      | .refused => { poller := poller.inPhase .ended }
  | .finishing signature =>
      if poller.deleteOnSuccess then
        { poller := poller.inPhase .looking
          warnings := if entry.isRemovable then [] else [removeWarning]
          removes := true }
      else { poller := { poller with dispatched := some signature, phase := .looking } }
  | .ended => { poller }

/-- How many steps a poll may still take while nothing else changes the file. -/
def stepsLeft (poller : Poller) (entry : FileEntry) : Nat :=
  let lines := (entry.content?.map Lines.all).getD []
  match poller.phase with
  | .looking => lines.length + 4
  | .reading _ => lines.length + 3
  | .sending _ lines => lines.length + 2
  | .finishing _ => 1
  | .ended => 0

/-- Steps until the poll is over, at most `fuel` times, while nothing else
changes the file. -/
def pollWithin (entry : FileEntry) : Nat → Option Nat → Poller → PollStep
  | 0, _, poller => { poller }
  | fuel + 1, room, poller =>
      let first := poller.step entry room
      match first.poller.phase with
      | .looking => first
      | .ended => first
      | _ =>
          let later := pollWithin entry fuel (room.map (· - first.values.length)) first.poller
          { poller := later.poller
            values := first.values ++ later.values
            warnings := first.warnings ++ later.warnings
            removes := first.removes || later.removes }

/-- Does a whole poll while nothing else changes the file. -/
def poll (poller : Poller) (entry : FileEntry) (room : Option Nat) : PollStep :=
  pollWithin entry (poller.stepsLeft entry) room poller

/-- Whether the source has ended. -/
def isOver (poller : Poller) : Bool :=
  poller.phase == .ended

end Poller

/-- The sources of a page; without any, standard input. -/
def Page.sourcesOrStdin (page : Page) : List Source :=
  if page.sources.isEmpty then [.stdin] else page.sources

end LivePage
