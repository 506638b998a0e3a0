import LivePage.Run.Engine
import LivePage.Schedule.World

/-!
# Machines

One script runs in the foreground, and the jobs it starts run as tasks beside
it, all on one world and one clock.  A script runs until it waits or ends; then
the tasks that are ready run, in the order in which they became so, each until
it waits or ends in turn.  Time passes only when no task is ready, and then it
jumps to the next moment at which something happens.
-/

namespace LivePage

/-- Where a task stands. -/
inductive TaskState where
  | ready (script : Script Outcome)
  | waiting (deadline : Nat) (script : Script Outcome)
  | finished (outcome : Outcome)
  | aborted

namespace TaskState

/-- Whether a task will not go on. -/
def isOver : TaskState → Bool
  | finished _ => true
  | aborted => true
  | _ => false

/-- The moment a task waits for. -/
def deadline? : TaskState → Option Nat
  | waiting deadline _ => some deadline
  | _ => none

end TaskState

/-- A job that was started. -/
structure Task where
  job : Job
  state : TaskState

/-- A world with its tasks and its clock, which counts milliseconds. -/
structure Machine (σ : Type) where
  world : World σ
  clock : Nat := 0
  /-- All tasks ever started; a task is named by its place. -/
  tasks : List Task := []
  /-- The tasks that are ready, the next one first. -/
  queue : List TaskId := []

/-- What scripts run with. -/
structure Setting (σ : Type) where
  engine : Engine
  host : Host σ

/-- How far a script came: to its end, or to a moment at which it waits. -/
inductive Progress (α : Type) where
  | ended (result : α)
  | waits (ms : Nat) (next : Script α)

namespace Machine

variable {σ : Type}

/-- Starts a job: its task is ready behind all others. -/
def start (setting : Setting σ) (machine : Machine σ) (job : Job) : TaskId × Machine σ :=
  let task := machine.tasks.length
  (task, { machine with
    tasks := machine.tasks ++ [{ job, state := .ready (setting.engine.runJob job) }]
    queue := machine.queue ++ [task] })

/-- Sends a request to the surroundings. -/
def answer (setting : Setting σ) (machine : Machine σ) (request : HttpRequest) :
    Answer × Machine σ :=
  let (answer, host) := setting.host.answer machine.world.page request machine.world.host
  (answer, { machine with world := { machine.world with host } })

/-- Does one thing at once. -/
def perform (setting : Setting σ) (machine : Machine σ) (effect : Effect) : Machine σ :=
  { machine with world := machine.world.perform setting.host effect }

/-- Runs a script until it waits or ends. -/
def advance (setting : Setting σ) : Script α → Machine σ → Progress α × Machine σ
  | .done result, machine => (.ended result, machine)
  | .perform effect next, machine => advance setting next (machine.perform setting effect)
  | .observe next, machine => advance setting (next machine.world.page) machine
  | .pause ms next, machine =>
      if ms = 0 then advance setting next machine else (.waits ms next, machine)
  | .request request next, machine =>
      let (answer, machine) := machine.answer setting request
      if answer.delay = 0 then advance setting (next answer.reply) machine
      else (.waits answer.delay (next answer.reply), machine)
  | .start job next, machine =>
      let (task, machine) := machine.start setting job
      advance setting (next task) machine

/-- Gives the surroundings their turn. -/
def rest (setting : Setting σ) (machine : Machine σ) : Machine σ :=
  { machine with world := { machine.world with host := setting.host.rest machine.world.host } }

def setState (machine : Machine σ) (task : TaskId) (state : TaskState) : Machine σ :=
  { machine with tasks := machine.tasks.modify task fun t => { t with state } }

/-- Runs a task that is ready until it waits or ends. -/
def runTask (setting : Setting σ) (machine : Machine σ) (task : TaskId) : Machine σ :=
  match (machine.tasks[task]?).map Task.state with
  | some (.ready script) =>
      match advance setting script machine with
      | (.ended outcome, machine) => (machine.setState task (.finished outcome)).rest setting
      | (.waits ms next, machine) =>
          (machine.setState task (.waiting (machine.clock + ms) next)).rest setting
  | _ => machine

/-- A bound on how often tasks can still become ready: every action may start as
a task, wait for its delay, and wait for a reply. -/
def work (machine : Machine σ) : Nat :=
  machine.tasks.foldr
    (fun task rest => (if task.state.isOver then 0 else 3 * task.job.action.size) + rest) 0

/-- Runs the ready tasks, at most `fuel` of them. -/
def settleWithin (setting : Setting σ) : Nat → Machine σ → Machine σ
  | 0, machine => machine
  | fuel + 1, machine =>
      match machine.queue with
      | [] => machine
      | task :: queue => settleWithin setting fuel ({ machine with queue }.runTask setting task)

/-- Runs tasks until none is ready. -/
def settle (setting : Setting σ) (machine : Machine σ) : Machine σ :=
  settleWithin setting (machine.queue.length + machine.work) machine

/-- The next moment that a task waits for. -/
def nextDeadline? (machine : Machine σ) : Option Nat :=
  (machine.tasks.filterMap (·.state.deadline?)).min?

/-- A task that waited for a moment that has come is ready. -/
def wakeTask (clock : Nat) (task : Task) : Task :=
  match task.state with
  | .waiting deadline script =>
      if deadline ≤ clock then { task with state := .ready script } else task
  | _ => task

/-- The tasks that wait for a moment that has come. -/
def dueTasks (clock : Nat) (tasks : List Task) : List TaskId :=
  (List.range tasks.length).filter fun id =>
    ((tasks[id]?).bind (·.state.deadline?)).any (· ≤ clock)

/-- Sets the clock; the tasks that waited for that moment are ready. -/
def setClock (machine : Machine σ) (clock : Nat) : Machine σ :=
  { machine with
    clock
    tasks := machine.tasks.map (wakeTask clock)
    queue := machine.queue ++ dueTasks clock machine.tasks }

/-- Lets time pass up to a moment, with at most `fuel` stops before it. -/
def passWithin (setting : Setting σ) (deadline : Nat) : Nat → Machine σ → Machine σ
  | 0, machine => machine.setClock deadline
  | fuel + 1, machine =>
      let machine := machine.settle setting
      match machine.nextDeadline?.filter (· < deadline) with
      | some next => passWithin setting deadline fuel (machine.setClock next)
      | none => machine.setClock deadline

/-- Lets time pass while the foreground waits for a moment. -/
def pass (setting : Setting σ) (machine : Machine σ) (ms : Nat) : Machine σ :=
  passWithin setting (machine.clock + ms) (machine.work + 1) (machine.rest setting)

/-- How a task ended, if it is over. -/
def outcome? (machine : Machine σ) (task : TaskId) : Option Outcome :=
  match (machine.tasks[task]?).map Task.state with
  | some (.finished outcome) => some outcome
  | some .aborted => some (.failure (.aborted task))
  | _ => none

/-- Whether a task is over. -/
def isOver (machine : Machine σ) (task : TaskId) : Bool :=
  (machine.outcome? task).isSome

/-- Lets time pass until a task is over, with at most `fuel` stops. -/
def awaitWithin (setting : Setting σ) (task : TaskId) : Nat → Machine σ → Machine σ
  | 0, machine => machine
  | fuel + 1, machine =>
      if machine.isOver task then machine
      else
        let machine := machine.settle setting
        if machine.isOver task then machine
        else match machine.nextDeadline? with
          | some next => awaitWithin setting task fuel (machine.setClock next)
          | none => machine

/-- Lets time pass until a task is over. -/
def await (setting : Setting σ) (machine : Machine σ) (task : TaskId) : Machine σ :=
  if machine.isOver task then machine
  else awaitWithin setting task (machine.work + 1) (machine.rest setting)

/-- Runs a script in the foreground to its end. -/
def run (setting : Setting σ) : Script α → Machine σ → α × Machine σ
  | .done result, machine => (result, machine)
  | .perform effect next, machine => run setting next (machine.perform setting effect)
  | .observe next, machine => run setting (next machine.world.page) machine
  | .pause ms next, machine =>
      run setting next (if ms = 0 then machine else machine.pass setting ms)
  | .request request next, machine =>
      let (answer, machine) := machine.answer setting request
      run setting (next answer.reply)
        (if answer.delay = 0 then machine else machine.pass setting answer.delay)
  | .start job next, machine =>
      let (task, machine) := machine.start setting job
      run setting (next task) machine

/-- Aborts a task unless it is over. -/
def abort (machine : Machine σ) (task : TaskId) : Machine σ :=
  if machine.isOver task then machine else machine.setState task .aborted

end Machine

end LivePage
