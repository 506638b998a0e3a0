import LivePage.Command.Options
import LivePage.Command.Report
import LivePage.Command.Terminal
import LivePage.Page.Load
import LivePage.Page.Schema
import LivePage.Run.Session
import LivePage.Schedule.Background
import LivePage.Schedule.Interrupt
import LivePage.Source.Poller

/-!
# The program

A page is loaded, trigger records from its sources are dispatched one after the
other, and in the end the program waits for the actions that still run in the
background, unless it is interrupted.  What it runs in may be anything that takes
the lines of its log; a whole run takes place in a terminal.
-/

namespace LivePage

def programName : String := "pageflow"

def programVersion : String := "0.1.0"

/-- A page in surroundings that take the log of the program. -/
structure Program (σ : Type) where
  session : Session
  setting : Setting σ
  machine : Machine σ
  /-- Writes a line of the log. -/
  journal : LogRecord → σ → σ
  background : Background := {}
  /-- Whether it was given up at a moment at which it waited. -/
  interrupted : Bool := false

namespace Program

variable {σ : Type}

def record (level : LogLevel) (message : String) (fields : List (String × LogValue) := []) :
    LogRecord :=
  { level, target := programName, message, fields }

def count (name : String) (n : Nat) : String × LogValue :=
  (name, .shown (Numeral.text n))

def write (program : Program σ) (record : LogRecord) : Program σ :=
  let world := program.machine.world
  { program with
    machine := { program.machine with
      world := { world with host := program.journal record world.host } } }

def log (program : Program Terminal) : Log :=
  program.machine.world.host.log

/-- A page about to start in a terminal, with what was logged before. -/
def ofPage (page : Page) (dryRun : Bool) (base : Option Url) (log : Log) : Program Terminal :=
  let session := Session.ofPage page
  { session
    setting := { engine := session.engine, host := Terminal.host dryRun base }
    journal := fun record terminal => terminal.write record
    machine := { world := {
      page := Session.initialState page
      host := { Terminal.initial with log } } } }

/-- Takes over the background actions of a run, which is not needed any more. -/
def track (program : Program σ) (run : Run) : Program σ :=
  { program with background := (program.background.takeOver program.machine run).1 }

/-- Runs a script in the foreground.  The program is interrupted if the test
holds while it waits, and then nothing follows. -/
def runScript (stop : σ → Bool) (program : Program σ) (script : Script α)
    (next : Program σ → α → Program σ) : Program σ :=
  if program.interrupted then program
  else
    match program.machine.runUnless program.setting stop script with
    | (some result, machine) => next { program with machine } result
    | (none, machine) => { program with machine, interrupted := true }

def afterLoad (program : Program σ) (loaded : String × Run) : Program σ :=
  let program :=
    if loaded.2.success then program
    else program.write (record .warn "onLoad sequence aborted" [("component", .shown loaded.1)])
  program.track loaded.2

def load (stop : σ → Bool) (program : Program σ) : Program σ :=
  program.runScript stop program.session.load fun program runs => runs.foldl afterLoad program

def afterRecord (raw : Json) (program : Program σ) :
    Except DispatchError (Option Run) → Program σ
  | .error error =>
      program.write (record .error "Failed to handle trigger"
        [("error", .shown error.message), ("record", .shown raw.compact)])
  | .ok none => program
  | .ok (some run) =>
      let program :=
        if run.success then program
        else program.write (record .warn "Action sequence aborted" [("record", .shown raw.compact)])
      program.track run

def dispatch (stop : σ → Bool) (program : Program σ) (raw : Json) : Program σ :=
  program.runScript stop (program.session.dispatchValue raw) (afterRecord raw)

/-- Lets the background actions that are ready go on, as they do while the program
waits for its sources. -/
def settle (stop : σ → Bool) (program : Program σ) : Program σ :=
  if program.interrupted then program
  else
    let machine := (program.machine.rest program.setting).settle program.setting
    { program with machine, interrupted := stop machine.world.host }

/-- Lets background actions go on until the test holds or none is left. -/
def idle (stop : σ → Bool) (program : Program σ) : Program σ :=
  if program.interrupted then program
  else { program with machine := program.machine.idleUntil program.setting stop }

/-- Waits for the background actions; the sources have ended. -/
def finish (program : Program σ) : Program σ :=
  let program := program.write
    (record .info "All trigger sources finished" [count "pending" program.background.size])
  let (outcomes, background, machine) := program.background.joinAll program.setting program.machine
  let program := { program with background, machine }
  let failed := (outcomes.filter (!·.succeeded)).length
  let program :=
    if failed = 0 then program
    else program.write (record .warn "Some background actions failed" [count "failed" failed])
  program.write (record .info "pageflow exited")

/-- Gives up the background actions. -/
def abandon (program : Program σ) : Program σ :=
  let program := program.write
    (record .info "Received Ctrl+C, shutting down" [count "abandoned" program.background.size])
  let (background, machine) := program.background.abortAll program.machine
  { program with background, machine }.write (record .info "pageflow exited")

end Program

/-! ## Whole runs -/

/-- What a program that runs once has to do with. -/
structure Surroundings where
  arguments : List String
  /-- The bytes of files by path. -/
  file? : String → Option (List UInt8)
  input : List UInt8
  /-- The level that is set for programs of this kind. -/
  logLevel : Option String := none
  /-- The program is interrupted once a line holds this text. -/
  interruptAt : Option String := none

namespace Command

def helpText : String :=
  "\n".intercalate
    ["Run a low-code page definition and dispatch component triggers to its actions",
      "",
      "Usage: pageflow [OPTIONS]",
      "",
      "Options:",
      "  -p, --page <PAGE>            Path to the JSON page definition [default: page.json]",
      "      --dry-run                Enable dry-run mode (log API calls instead of sending them)",
      "      --base-url <BASE_URL>    Base URL for relative API paths. Overrides `settings.baseUrl`",
      "      --log-level <LOG_LEVEL>  Set log level (e.g., trace, debug, info, warn, error). " ++
        "Overrides RUST_LOG",
      "      --print-schema           Print the JSON Schema for the page definition and exit",
      "  -h, --help                   Print help",
      "  -V, --version                Print version"]

/-- The level up to which lines show: the one that the options give, else the one
that is set. -/
def levelLimit (options : Options) (set : Option String) : LogLevel :=
  ((options.logLevel.or set).bind LogLevel.ofName?).getD .info

def shown (limit : LogLevel) (log : Log) : Log :=
  log.filter fun record => limit.shows record.level

/-- Whether a text stands on a line that shows. -/
def hasLine (limit : LogLevel) (text : String) (terminal : Terminal) : Bool :=
  (shown limit terminal.log).any fun record => (Text.lines record.line).any (·.mentions text)

/-- The test for an interruption; it never holds where none is planned. -/
def stopTest (limit : LogLevel) (interruptAt : Option String) (terminal : Terminal) : Bool :=
  interruptAt.any fun text => hasLine limit text terminal

def sourceRecords (surroundings : Surroundings) : Source → List Json
  | .stdin => (Lines.forward none false (Lines.all surroundings.input)).values
  | .file path pollMs deleteOnSuccess =>
      let source := FileSource.ofOptions path pollMs deleteOnSuccess
      let entry := match surroundings.file? path with
        | some bytes => FileEntry.ofBytes bytes 0
        | none => .absent
      (({ deleteOnSuccess := source.deleteOnSuccess } : Poller).poll entry none).values

/-- The records of some sources; standard input is read once. -/
def allRecords (surroundings : Surroundings) : List Source → List Json
  | [] => []
  | .stdin :: rest =>
      sourceRecords surroundings .stdin ++ allRecords { surroundings with input := [] } rest
  | source :: rest => sourceRecords surroundings source ++ allRecords surroundings rest

/-- The first record of a run. -/
def starting (options : Options) : LogRecord :=
  Program.record .info "Starting pageflow"
    [("version", .text programVersion), ("page", .shown options.page),
      ("dry_run", .shown (if options.dryRun then "true" else "false"))]

/-- The record of a page that is loaded. -/
def loaded : LogRecord :=
  Program.record .debug "Page definition loaded successfully"

/-- Runs a page until its sources end or it is interrupted.  The sources start
when the page is loaded. -/
def runProgram (surroundings : Surroundings) (stop : Terminal → Bool)
    (program : Program Terminal) : Program Terminal :=
  let program := (program.load stop).settle stop
  let records := allRecords surroundings program.session.page.sourcesOrStdin
  let program := records.foldl (Program.dispatch stop) program
  if surroundings.interruptAt.isSome then (program.idle stop).abandon else program.finish

/-- The address that the options or the page give for requests. -/
def baseUrl? (options : Options) (page : Page) : Except UrlError (Option Url) :=
  match options.baseUrl.or page.settings.baseUrl with
  | none => .ok none
  | some text => some <$> Url.parse text

/-- Loads a page from the file that the options name. -/
def loadPage (surroundings : Surroundings) (options : Options) : Log × Except LoadError Page :=
  let text := (surroundings.file? options.page).map fun bytes =>
    (String.fromUTF8? (ByteArray.mk bytes.toArray)).getD ""
  Page.load (.file options.page) text

/-- Opens the page that the options name: the program before its first step, or
the report of why it does not come to that. -/
def openPage (surroundings : Surroundings) (options : Options) : Except Report (Program Terminal) :=
  let limit := levelLimit options surroundings.logLevel
  match loadPage surroundings options with
  | (warnings, .error error) =>
      .error (Report.failed (shown limit (starting options :: warnings)) error.message)
  | (warnings, .ok page) =>
      let log := starting options :: warnings ++ [loaded]
      match baseUrl? options page with
      | .error _ => .error (Report.failed (shown limit log) "Invalid base URL")
      | .ok base => .ok (Program.ofPage page options.dryRun base log)

/-- Runs the page that the options name. -/
def runPage (surroundings : Surroundings) (options : Options) : Report :=
  let limit := levelLimit options surroundings.logLevel
  match openPage surroundings options with
  | .error report => report
  | .ok program =>
      let program := runProgram surroundings (stopTest limit surroundings.interruptAt) program
      { output := (shown limit program.log).map .record }

/-- Runs the program once. -/
def run (surroundings : Surroundings) : Report :=
  match Invocation.ofArguments surroundings.arguments with
  | .help => { output := [.text helpText] }
  | .version => { output := [.text (programName ++ " " ++ programVersion)] }
  | .refused error => { code := 2, error := "error: " ++ error.message }
  | .run options =>
      if options.printSchema then { output := [.text (Schema.page.pretty 0)] }
      else runPage surroundings options

end Command

end LivePage
