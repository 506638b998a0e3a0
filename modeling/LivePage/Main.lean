import LivePage.Command.Program
import LivePage.Source.Watch

/-!
# Process

The program as a process.  Records are dispatched as they arrive on standard
input and in files, and log lines appear as time passes.  All that is decided
here is when to look again; what follows from it is decided by `Program`.
-/

namespace LivePage.Process

/-- The environment variable that sets the log level of programs. -/
def levelVariable : String := "RUST_LOG"

/-- Milliseconds from one look at the sources to the next. -/
def tickMs : Nat := FileSource.leastPollMs

def fileBytes? (path : String) : IO (Option (List UInt8)) := do
  try return some (← IO.FS.readBinFile path).toList
  catch _ => return none

/-- What stands at a path.  The time of the last change is not looked at, so a
file that is kept counts as changed when its length does. -/
def entryAt (path : String) : IO FileEntry := do
  match ← fileBytes? path with
  | some bytes => return .ofBytes bytes 0
  | none => return .absent

/-- Prints a report; its code is the exit code. -/
def print (report : Report) : IO UInt32 := do
  for printed in report.output do
    IO.println printed.whole
  if report.error ≠ "" then
    IO.eprintln report.error
  return report.code.toUInt32

/-- What arrived on standard input and was not taken yet. -/
structure Inbox where
  lines : List (List UInt8) := []
  ended : Bool := false

/-- Takes in lines until standard input ends or cannot be read. -/
partial def receive (inbox : IO.Ref Inbox) : IO Unit := do
  let line ← try (← IO.getStdin).getLine catch _ => pure ""
  if line.isEmpty then
    inbox.modify fun waiting => { waiting with ended := true }
  else
    inbox.modify fun waiting => { waiting with lines := waiting.lines ++ [line.toUTF8.toList] }
    receive inbox

/-- A program at work. -/
structure Live where
  limit : LogLevel
  program : Program Terminal
  /-- How many records of its log were looked at. -/
  seen : Nat := 0

namespace Live

def never (_ : Terminal) : Bool := false

/-- Goes on with a later state of the program: as much time passes as passed
there, and the new records that show are printed. -/
def follow (live : Live) (program : Program Terminal) : IO Live := do
  IO.sleep (program.machine.clock - live.program.machine.clock).toUInt32
  for record in Command.shown live.limit (program.log.drop live.seen) do
    IO.println record.line
  (← IO.getStdout).flush
  return { live with program, seen := program.log.length }

/-- Dispatches records one after the other. -/
def dispatchAll (live : Live) (records : List Json) : IO Live :=
  records.foldlM (fun live raw => live.follow (live.program.dispatch never raw)) live

/-- Lets the time between two looks pass. -/
def tick (live : Live) : IO Live :=
  live.follow (live.program.runScript never (Script.wait tickMs) fun program _ => program)

/-- Polls a file if that is due. -/
def look (live : Live) (watched : Watched) : IO (Live × Watched) := do
  if live.program.machine.clock < watched.due then return (live, watched)
  let path := watched.source.path
  let step := watched.poller.poll (← entryAt path) none
  if step.removes then
    try IO.FS.removeFile path catch _ => pure ()
  let live ← live.dispatchAll step.values
  return (live, { watched with poller := step.poller, due := watched.due + watched.source.pollMs })

/-- Polls the files that are due. -/
def lookAll (live : Live) : List Watched → IO (Live × List Watched)
  | [] => return (live, [])
  | watched :: rest => do
      let (live, watched) ← live.look watched
      let (live, rest) ← live.lookAll rest
      return (live, watched :: rest)

/-- Dispatches what arrives until all sources have ended; files never do. -/
partial def serve (live : Live) (inbox : IO.Ref Inbox) (files : List Watched) : IO Live := do
  let waiting ← inbox.modifyGet fun waiting => (waiting, { waiting with lines := [] })
  let live ← live.dispatchAll (Lines.forward none false waiting.lines).values
  let (live, files) ← live.lookAll files
  if waiting.ended && files.isEmpty then return live
  (← live.tick).serve inbox files

/-- Runs an opened program to its end. -/
def run (live : Live) : IO UInt32 := do
  let live ← live.follow ((live.program.load never).settle never)
  let sources := live.program.session.page.sourcesOrStdin
  let inbox ← IO.mkRef ({ ended := !sources.contains .stdin } : Inbox)
  if sources.contains .stdin then
    discard <| IO.asTask (receive inbox) Task.Priority.dedicated
  let watch := ({ clock := live.program.machine.clock } : Watch).start sources
  let live ← live.serve inbox watch.watched
  discard <| live.follow live.program.finish
  return 0

end Live

/-- Runs the program with some arguments. -/
def start (arguments : List String) : IO UInt32 := do
  let surroundings : Surroundings := { arguments, file? := fun _ => none, input := [] }
  match Invocation.ofArguments arguments with
  | .run options =>
      if options.printSchema then print (Command.run surroundings)
      else
        let page ← fileBytes? options.page
        let logLevel ← IO.getEnv levelVariable
        let surroundings := { surroundings with file? := fun _ => page, logLevel }
        match Command.openPage surroundings options with
        | .error report => print report
        | .ok program => ({ limit := Command.levelLimit options logLevel, program } : Live).run
  | _ => print (Command.run surroundings)

end LivePage.Process

/-- Runs the program. -/
def main (arguments : List String) : IO UInt32 :=
  LivePage.Process.start arguments
