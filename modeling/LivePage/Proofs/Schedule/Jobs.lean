import LivePage.Proofs.Run.Compact
import LivePage.Proofs.Schedule.Crowd

/-!
# Maps of jobs

Jobs and errands can be replaced by others before or after anything that a crowd does,
as long as their scripts are the same up to the jobs that they start in turn.  Such a
replacement then has no influence on a page: neither on its state, its surroundings and
its clock, nor on what the runs and the tasks report.
-/

namespace LivePage

variable {σ : Type}

/-- Maps of jobs and errands that scripts respect. -/
structure Engine.Respects (engine : Engine) (f : Job → Job) (g : Errand → Errand) : Prop where
  runJob : ∀ job, engine.runJob (f job) = (engine.runJob job).mapJobs f
  runErrand : ∀ errand, engine.runErrand (g errand) = (engine.runErrand errand).mapJobs f

def Act.mapJobs (f : Job → Job) : Act → Act
  | .started job task => .started (f job) task
  | act => act

def Progress.mapJobs (f : Job → Job) : Progress α → Progress α
  | .ended result => .ended result
  | .waits ms next => .waits ms (next.mapJobs f)

def TaskState.mapJobs (f : Job → Job) : TaskState → TaskState
  | .ready script => .ready (script.mapJobs f)
  | .waiting deadline script => .waiting deadline (script.mapJobs f)
  | .finished outcome => .finished outcome
  | .aborted => .aborted

def Task.mapJobs (f : Job → Job) (task : Task) : Task where
  job := f task.job
  state := task.state.mapJobs f

def ThreadState.mapJobs (f : Job → Job) : ThreadState → ThreadState
  | .waiting deadline script => .waiting deadline (script.mapJobs f)
  | .ended run => .ended run

def Thread.mapJobs (f : Job → Job) (g : Errand → Errand) (thread : Thread) : Thread where
  errand := g thread.errand
  state := thread.state.mapJobs f

def Deed.mapJobs (f : Job → Job) : Deed → Deed
  | .acted actor act => .acted actor (act.mapJobs f)
  | .wrote ops => .wrote ops

def Move.mapErrand (g : Errand → Errand) : Move → Move
  | .enter errand => .enter (g errand)
  | move => move

theorem modify_map {α : Type} {f modified mapped : α → α}
    (hcomm : ∀ a, modified (f a) = f (mapped a)) (items : List α) (i : Nat) :
    (items.map f).modify i modified = (items.modify i mapped).map f := by
  induction items generalizing i with
  | nil => simp
  | cons item rest ih =>
      cases i with
      | zero => simp [hcomm]
      | succ i => simp [ih]

namespace Machine

/-- The machine with other jobs in place of its own. -/
def mapJobs (f : Job → Job) (machine : Machine σ) : Machine σ :=
  { machine with tasks := machine.tasks.map (Task.mapJobs f) }

variable {setting : Setting σ} {f : Job → Job} {g : Errand → Errand}

theorem start_mapJobs (hengine : setting.engine.Respects f g) (machine : Machine σ) (job : Job) :
    (machine.mapJobs f).start setting (f job) =
      ((machine.start setting job).1, (machine.start setting job).2.mapJobs f) := by
  simp [start, mapJobs, Task.mapJobs, TaskState.mapJobs, hengine.runJob]

theorem answer_mapJobs (setting : Setting σ) (f : Job → Job) (machine : Machine σ)
    (message : HttpRequest) :
    (machine.mapJobs f).answer setting message =
      ((machine.answer setting message).1, (machine.answer setting message).2.mapJobs f) := rfl

/-- A script comes equally far with other jobs. -/
theorem advance_mapJobs (hengine : setting.engine.Respects f g) (script : Script α)
    (machine : Machine σ) :
    advance setting (script.mapJobs f) (machine.mapJobs f) =
      ((advance setting script machine).1.mapJobs f,
        (advance setting script machine).2.mapJobs f) := by
  induction script generalizing machine with
  | done result => rfl
  | perform effect next ih => exact ih (machine.perform setting effect)
  | observe next ih => exact ih _ machine
  | pause ms next ih =>
      rw [Script.mapJobs, advance, advance]
      split
      · exact ih machine
      · rfl
  | request message next ih =>
      rw [Script.mapJobs, advance_request, advance_request, answer_mapJobs]
      split
      · exact ih _ _
      · rfl
  | start job next ih =>
      rw [Script.mapJobs, advance, advance, start_mapJobs hengine]
      exact ih _ (machine.start setting job).2

theorem acts_mapJobs (hengine : setting.engine.Respects f g) (script : Script α)
    (machine : Machine σ) :
    acts setting (script.mapJobs f) (machine.mapJobs f) =
      (acts setting script machine).map (Act.mapJobs f) := by
  induction script generalizing machine with
  | done result => rfl
  | perform effect next ih => exact congrArg (_ :: ·) (ih (machine.perform setting effect))
  | observe next ih => exact congrArg (_ :: ·) (ih _ machine)
  | pause ms next ih =>
      rw [Script.mapJobs, acts, acts, List.map_cons]
      congr 1
      split
      · exact ih machine
      · rfl
  | request message next ih =>
      rw [Script.mapJobs, acts_request, acts_request, answer_mapJobs, List.map_cons]
      congr 1
      split
      · exact ih _ _
      · rfl
  | start job next ih =>
      rw [Script.mapJobs, acts, acts, start_mapJobs hengine]
      exact congrArg (_ :: ·) (ih _ (machine.start setting job).2)

theorem state?_mapJobs (f : Job → Job) (machine : Machine σ) (task : TaskId) :
    ((machine.mapJobs f).tasks[task]?).map Task.state =
      ((machine.tasks[task]?).map Task.state).map (TaskState.mapJobs f) := by
  simp [mapJobs, Function.comp_def, Task.mapJobs]

theorem setState_mapJobs (f : Job → Job) (machine : Machine σ) (task : TaskId)
    (state : TaskState) :
    (machine.mapJobs f).setState task (state.mapJobs f) =
      (machine.setState task state).mapJobs f := by
  have htasks : (machine.tasks.map (Task.mapJobs f)).modify task
        (fun own => { own with state := state.mapJobs f }) =
      (machine.tasks.modify task fun own => { own with state }).map (Task.mapJobs f) := by
    refine modify_map (fun own => ?_) machine.tasks task
    rfl
  exact congrArg (fun tasks => { machine with tasks := tasks }) htasks

theorem setClock_mapJobs (f : Job → Job) (machine : Machine σ) (clock : Nat) :
    (machine.mapJobs f).setClock clock = (machine.setClock clock).mapJobs f := by
  have hwake (task : Task) :
      wakeTask clock (task.mapJobs f) = (wakeTask clock task).mapJobs f := by
    obtain ⟨job, state⟩ := task
    cases state with
    | waiting deadline script =>
        simp only [wakeTask, Task.mapJobs, TaskState.mapJobs]
        split <;> rfl
    | ready | finished | aborted => rfl
  have hdeadline (task : Task) : (task.mapJobs f).state.deadline? = task.state.deadline? := by
    obtain ⟨job, state⟩ := task
    cases state <;> rfl
  simp [setClock, mapJobs, dueTasks, hwake, hdeadline, Option.bind_map, Function.comp_def]

@[simp]
theorem outcome?_mapJobs (f : Job → Job) (machine : Machine σ) (task : TaskId) :
    (machine.mapJobs f).outcome? task = machine.outcome? task := by
  rw [outcome?, outcome?, state?_mapJobs]
  rcases (machine.tasks[task]?).map Task.state with _ | (_ | _ | _ | _) <;> rfl

theorem abort_mapJobs (f : Job → Job) (machine : Machine σ) (task : TaskId) :
    (machine.mapJobs f).abort task = (machine.abort task).mapJobs f := by
  rw [abort, abort, isOver, isOver, outcome?_mapJobs]
  split
  · rfl
  · exact setState_mapJobs f machine task .aborted

theorem runTask_mapJobs (hengine : setting.engine.Respects f g) (machine : Machine σ)
    (task : TaskId) :
    (machine.mapJobs f).runTask setting task = (machine.runTask setting task).mapJobs f := by
  rw [runTask, runTask, state?_mapJobs]
  rcases (machine.tasks[task]?).map Task.state with _ | (script | _ | _ | _)
  case some.ready =>
    simp only [Option.map_some, TaskState.mapJobs, advance_mapJobs hengine]
    rcases advance setting script machine with ⟨outcome | ⟨ms, next⟩, after⟩
    · exact congrArg (rest setting) (setState_mapJobs f after task (.finished outcome))
    · exact congrArg (rest setting)
        (setState_mapJobs f after task (.waiting (after.clock + ms) next))
  all_goals rfl

end Machine

namespace Crowd

/-- The crowd with other jobs and errands in place of its own. -/
def mapJobs (f : Job → Job) (g : Errand → Errand) (crowd : Crowd σ) : Crowd σ where
  machine := crowd.machine.mapJobs f
  threads := crowd.threads.map (Thread.mapJobs f g)
  history := crowd.history.map (Deed.mapJobs f)

variable {setting : Setting σ} {f : Job → Job} {g : Errand → Errand}

theorem state?_mapJobs (f : Job → Job) (g : Errand → Errand) (crowd : Crowd σ) (i : Nat) :
    ((crowd.mapJobs f g).threads[i]?).map Thread.state =
      ((crowd.threads[i]?).map Thread.state).map (ThreadState.mapJobs f) := by
  simp [mapJobs, Function.comp_def, Thread.mapJobs]

/-- A run has ended with other jobs where it has ended with its own. -/
theorem ended_mapJobs_iff {crowd : Crowd σ} {i : Nat} {run : Run} :
    ((crowd.mapJobs f g).threads[i]?).map Thread.state = some (.ended run) ↔
      (crowd.threads[i]?).map Thread.state = some (.ended run) := by
  rw [state?_mapJobs]
  rcases (crowd.threads[i]?).map Thread.state with _ | (_ | _) <;> simp [ThreadState.mapJobs]

theorem afterTurn_mapJobs (crowd : Crowd σ) (actor : Actor) (acts : List Act)
    (machine : Machine σ) (threads : List Thread) :
    (crowd.mapJobs f g).afterTurn actor (acts.map (Act.mapJobs f)) (machine.mapJobs f)
        (threads.map (Thread.mapJobs f g)) =
      (crowd.afterTurn actor acts machine threads).mapJobs f g := by
  simp [afterTurn, mapJobs, Function.comp_def, Deed.mapJobs]

theorem state_afterTurn_mapJobs (f : Job → Job) (clock : Nat) (progress : Progress Run) :
    ThreadState.afterTurn clock (progress.mapJobs f) =
      (ThreadState.afterTurn clock progress).mapJobs f := by
  cases progress <;> rfl

/-- A move does the same with other jobs. -/
theorem step_mapJobs (hengine : setting.engine.Respects f g) (crowd : Crowd σ) (move : Move) :
    (crowd.mapJobs f g).step setting (move.mapErrand g) =
      (crowd.step setting move).mapJobs f g := by
  have hmachine : (crowd.mapJobs f g).machine = crowd.machine.mapJobs f := rfl
  have hthreads : (crowd.mapJobs f g).threads = crowd.threads.map (Thread.mapJobs f g) := rfl
  cases move with
  | enter errand =>
      simp only [Move.mapErrand, step, hengine.runErrand, hmachine, hthreads, List.length_map,
        Machine.advance_mapJobs hengine, Machine.acts_mapJobs hengine, state_afterTurn_mapJobs]
      rw [← afterTurn_mapJobs, List.map_append]
      rfl
  | goOn i =>
      simp only [Move.mapErrand, step, state?_mapJobs]
      rcases (crowd.threads[i]?).map Thread.state with _ | (⟨deadline, script⟩ | run)
      case some.waiting =>
        have hclock : (crowd.machine.mapJobs f).clock = crowd.machine.clock := rfl
        simp only [Option.map_some, ThreadState.mapJobs, hmachine, hclock]
        by_cases hdue : deadline ≤ crowd.machine.clock
        · rw [if_pos hdue, if_pos hdue, ← afterTurn_mapJobs, Machine.advance_mapJobs hengine,
            Machine.acts_mapJobs hengine, hthreads]
          congr 1
          refine modify_map (fun thread => ?_) crowd.threads i
          rw [state_afterTurn_mapJobs]
          rfl
        · rw [if_neg hdue, if_neg hdue]
      all_goals rfl
  | turn task =>
      have hpop : (crowd.mapJobs f g).machine.pop task = (crowd.machine.pop task).mapJobs f := rfl
      simp only [Move.mapErrand, step, hpop, Machine.state?_mapJobs]
      rcases ((crowd.machine.pop task).tasks[task]?).map Task.state with _ | (script | _ | _ | _)
      case some.ready =>
        simp only [Option.map_some, TaskState.mapJobs, Machine.acts_mapJobs hengine,
          Machine.runTask_mapJobs hengine, hthreads, afterTurn_mapJobs]
      all_goals rfl
  | tick ms =>
      exact congrArg (fun machine => { crowd.mapJobs f g with machine := machine })
        (crowd.machine.setClock_mapJobs f (crowd.machine.clock + ms))
  | rest => rfl
  | abort task =>
      exact congrArg (fun machine => { crowd.mapJobs f g with machine := machine })
        (crowd.machine.abort_mapJobs f task)
  | write ops =>
      simp only [Move.mapErrand, step, mapJobs, List.map_append]
      rfl

/-- Moves do the same with other jobs. -/
theorem play_mapJobs (hengine : setting.engine.Respects f g) (crowd : Crowd σ)
    (moves : List Move) :
    (crowd.mapJobs f g).play setting (moves.map (Move.mapErrand g)) =
      (crowd.play setting moves).mapJobs f g := by
  induction moves generalizing crowd with
  | nil => rfl
  | cons move rest ih =>
      rw [List.map_cons, play, List.foldl_cons, step_mapJobs hengine]
      exact ih _

/-- Crowds that are the same but for their jobs stand on the same page in the same
surroundings at the same moment, and everything that has come to an end has come to the
same end. -/
theorem same_of_mapJobs_eq {crowd other : Crowd σ}
    (heq : crowd.mapJobs f g = other.mapJobs f g) :
    crowd.machine.world = other.machine.world ∧ crowd.machine.clock = other.machine.clock ∧
      (∀ task, crowd.machine.outcome? task = other.machine.outcome? task) ∧
      ∀ (i : Nat) (run : Run), (crowd.threads[i]?).map Thread.state = some (.ended run) ↔
        (other.threads[i]?).map Thread.state = some (.ended run) := by
  have hmachine : crowd.machine.mapJobs f = other.machine.mapJobs f := congrArg machine heq
  have hworld : (crowd.machine.mapJobs f).world = (other.machine.mapJobs f).world := by
    rw [hmachine]
  have hclock : (crowd.machine.mapJobs f).clock = (other.machine.mapJobs f).clock := by
    rw [hmachine]
  refine ⟨hworld, hclock, fun task => ?_, fun i run => ?_⟩
  · rw [← Machine.outcome?_mapJobs f, hmachine, Machine.outcome?_mapJobs]
  · rw [← ended_mapJobs_iff (f := f) (g := g), heq, ended_mapJobs_iff]

end Crowd

end LivePage
