import LivePage.Source.Poller

/-!
# Watched files

Several file sources are polled side by side on one clock.  Each is polled at
once when it starts and then again after its time between polls; polls of one
moment follow the order of the sources.  A poll sees the files as they are at
its moment, and a file that it removes is gone for the next one.
-/

namespace LivePage

/-- A file source with the moment of its next poll. -/
structure Watched where
  source : FileSource
  poller : Poller
  due : Nat
deriving DecidableEq, Repr

namespace Watched

def since (now : Nat) (source : FileSource) : Watched where
  source := source
  poller := { deleteOnSuccess := source.deleteOnSuccess }
  due := now

/-- Whether the source is polled at a moment. -/
def isDue (now : Nat) (watched : Watched) : Bool :=
  watched.due == now && !watched.poller.isOver

/-- The source after it was told to stop. -/
def stopped (watched : Watched) : Watched :=
  { watched with poller := watched.poller.inPhase .ended }

end Watched

/-- File sources at a moment, and what they gave up to then. -/
structure Watch where
  /-- What stands at the paths; nothing stands at any other. -/
  files : Dict FileEntry := ∅
  watched : List Watched := []
  clock : Nat := 0
  /-- Whether nobody takes records any more. -/
  isClosed : Bool := false
  /-- Whether the sources are told to stop as soon as time goes on. -/
  isStopping : Bool := false
  values : List Json := []
  warnings : List String := []

namespace Watch

/-- Some texts without those that repeat the one before. -/
def collapsed : List String → List String
  | [] => []
  | first :: rest =>
      match collapsed rest with
      | [] => [first]
      | second :: later => if first = second then second :: later else first :: second :: later

def entry (watch : Watch) (path : String) : FileEntry :=
  (watch.files.get? path).getD .absent

/-- Puts something at a path. -/
def place (watch : Watch) (path : String) (entry : FileEntry) : Watch :=
  { watch with files := watch.files.insert path entry }

/-- How many records the receiver takes; any number while it is open. -/
def room (watch : Watch) : Option Nat :=
  if watch.isClosed then some 0 else none

/-- Starts the file sources among some sources. -/
def start (watch : Watch) (sources : List Source) : Watch :=
  { watch with watched := sources.filterMap fun
    | .file path pollMs deleteOnSuccess =>
        some (.since watch.clock (.ofOptions path pollMs deleteOnSuccess))
    | .stdin => none }

def poll (watch : Watch) (watched : Watched) : Watch × Watched :=
  let path := watched.source.path
  let step := watched.poller.poll (watch.entry path) watch.room
  let watch := if step.removes then watch.place path (watch.entry path).removed else watch
  ({ watch with
      values := watch.values ++ step.values
      warnings := watch.warnings ++ step.warnings },
    { watched with poller := step.poller, due := watched.due + watched.source.pollMs })

/-- Polls those of some sources that are due. -/
def pollDue (watch : Watch) : List Watched → Watch × List Watched
  | [] => (watch, [])
  | watched :: rest =>
      let (watch, watched) :=
        if watched.isDue watch.clock then watch.poll watched else (watch, watched)
      let (watch, rest) := pollDue watch rest
      (watch, watched :: rest)

/-- Lets one millisecond pass. -/
def tick (watch : Watch) : Watch :=
  let (polled, watched) := watch.pollDue watch.watched
  { polled with watched, clock := polled.clock + 1 }

/-- Lets some milliseconds pass. -/
def ticks : Nat → Watch → Watch
  | 0, watch => watch
  | n + 1, watch => ticks n watch.tick

/-- Ends the sources if they are told to stop. -/
def settleStop (watch : Watch) : Watch :=
  if watch.isStopping then { watch with watched := watch.watched.map Watched.stopped } else watch

/-- Waits for some milliseconds; polls that are due in the end are left to the
next wait. -/
def wait (watch : Watch) (ms : Nat) : Watch :=
  ticks ms watch.settleStop

/-- Whether all sources have ended. -/
def isOver (watch : Watch) : Bool :=
  watch.watched.all (·.poller.isOver)

/-- The warnings up to now; one that repeats the one before it is left out. -/
def warningRuns (watch : Watch) : List String :=
  collapsed watch.warnings

/-- The watch after its records and warnings were taken. -/
def taken (watch : Watch) : Watch :=
  { watch with values := [], warnings := [] }

end Watch

end LivePage
