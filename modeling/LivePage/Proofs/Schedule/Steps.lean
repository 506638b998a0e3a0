import Mathlib.Data.List.Forall2
import Mathlib.Logic.Relation
import LivePage.Proofs.Run.Starts
import LivePage.Proofs.Schedule.Loops

/-!
# Schedules

All schedules of a machine.  Any task of the queue may have the next turn, time
may pass at any moment, and the surroundings may have their turn; a script in the
foreground waits through any of these steps.  The machine itself follows one of
these schedules.
-/

namespace LivePage

/-- How the state of a task may change in one step. -/
inductive TaskState.Becomes : TaskState → TaskState → Prop where
  | same {state : TaskState} : Becomes state state
  | woken {deadline : Nat} {script : Script Outcome} :
      Becomes (.waiting deadline script) (.ready script)
  | turned {script : Script Outcome} {acts : List Act} {progress : Progress Outcome} {clock : Nat} :
      progress.Of script acts → Becomes (.ready script) (.afterTurn clock progress)

/-- How a task may change in one step. -/
def Task.Becomes (task after : Task) : Prop :=
  after.job = task.job ∧ task.state.Becomes after.state

theorem Task.Becomes.refl (task : Task) : task.Becomes task :=
  ⟨rfl, .same⟩

namespace Machine

variable {σ : Type} {setting : Setting σ}

/-- One step of a schedule. -/
inductive Step (setting : Setting σ) : Machine σ → Machine σ → Prop where
  | turn {machine : Machine σ} {task : TaskId} : task ∈ machine.queue →
      Step setting machine
        ({ machine with queue := machine.queue.erase task }.runTask setting task)
  | tick {machine : Machine σ} {clock : Nat} : machine.clock ≤ clock →
      Step setting machine (machine.setClock clock)
  | rest {machine : Machine σ} : Step setting machine (machine.rest setting)

/-- A part of a schedule. -/
abbrev Steps (setting : Setting σ) : Machine σ → Machine σ → Prop :=
  Relation.ReflTransGen (Step setting)

/-- A script in the foreground, under any schedule. -/
inductive Runs (setting : Setting σ) : Script α → Machine σ → α → Machine σ → Prop where
  | done {result : α} {machine : Machine σ} : Runs setting (.done result) machine result machine
  | perform {effect : Effect} {next : Script α} {machine after : Machine σ} {result : α} :
      Runs setting next (machine.perform setting effect) result after →
      Runs setting (.perform effect next) machine result after
  | observe {next : PageState → Script α} {machine after : Machine σ} {result : α} :
      Runs setting (next machine.world.page) machine result after →
      Runs setting (.observe next) machine result after
  | pause {ms : Nat} {next : Script α} {machine awake after : Machine σ} {result : α} :
      Steps setting machine awake → machine.clock + ms ≤ awake.clock →
      Runs setting next awake result after →
      Runs setting (.pause ms next) machine result after
  | request {message : HttpRequest} {next : HttpReply → Script α}
      {machine awake after : Machine σ} {result : α} :
      Steps setting (machine.answer setting message).2 awake →
      machine.clock + (machine.answer setting message).1.delay ≤ awake.clock →
      Runs setting (next (machine.answer setting message).1.reply) awake result after →
      Runs setting (.request message next) machine result after
  | start {job : Job} {next : TaskId → Script α} {machine after : Machine σ} {result : α} :
      Runs setting (next machine.tasks.length) (machine.start setting job).2 result after →
      Runs setting (.start job next) machine result after

/-- A task that is ready may start the job in its next turn. -/
def MayStart (machine : Machine σ) (job : Job) : Prop :=
  ∃ task ∈ machine.tasks, ∃ script acts progress,
    task.state = .ready script ∧ Progress.Of script acts progress ∧ job ∈ Act.jobs acts

/-- What one step does to the tasks: those there are move on, and those that they
start come behind them. -/
def Evolves (setting : Setting σ) (machine after : Machine σ) : Prop :=
  ∃ (moved : List Task) (jobs : List Job), after.tasks = moved ++ jobs.map setting.newTask ∧
    List.Forall₂ Task.Becomes machine.tasks moved ∧ ∀ job ∈ jobs, machine.MayStart job

/-- What happens to the tasks while none is aborted: those there are move on, and new ones
come behind them. -/
def Grows (setting : Setting σ) (machine after : Machine σ) : Prop :=
  ∃ (moved : List Task) (jobs : List Job), after.tasks = moved ++ jobs.map setting.newTask ∧
    List.Forall₂ Task.Becomes machine.tasks moved

theorem Evolves.grows {machine after : Machine σ} (hevolves : Evolves setting machine after) :
    Grows setting machine after := by
  obtain ⟨moved, jobs, htasks, hmoved, -⟩ := hevolves
  exact ⟨moved, jobs, htasks, hmoved⟩

theorem evolves_of_tasks_eq {machine after : Machine σ} (htasks : after.tasks = machine.tasks) :
    Evolves setting machine after := by
  refine ⟨machine.tasks, [], by simpa using htasks, ?_, by simp⟩
  exact List.forall₂_same.2 fun task _ => .refl task

theorem evolves_runTask (machine : Machine σ) (task : TaskId) :
    Evolves setting machine (machine.runTask setting task) := by
  by_cases hready : ∃ script, (machine.tasks[task]?).map Task.state = some (.ready script)
  · obtain ⟨script, hready⟩ := hready
    obtain ⟨before, own, behind, acts, progress, hsplit, -, hstate, hof, htasks, -, -⟩ :=
      runTask_spec setting machine hready
    refine ⟨before ++ { own with state := .afterTurn machine.clock progress } :: behind,
      Act.jobs acts, by rw [htasks, List.append_assoc, List.cons_append], ?_, ?_⟩
    · rw [hsplit]
      refine List.rel_append (List.forall₂_same.2 fun other _ => .refl other) ?_
      refine .cons ⟨rfl, ?_⟩ (List.forall₂_same.2 fun other _ => .refl other)
      rw [hstate]
      exact .turned hof
    · intro job hjob
      exact ⟨own, by simp [hsplit], script, acts, progress, hstate, hof, hjob⟩
  · rw [runTask_of_not_ready setting hready]
    exact evolves_of_tasks_eq rfl

theorem becomes_wakeTask (clock : Nat) (task : Task) : task.Becomes (wakeTask clock task) := by
  rcases wakeTask_cases clock task with ⟨hsame, -⟩ | ⟨deadline, script, hstate, -, hwoken⟩
  · rw [hsame]
    exact .refl task
  · rw [hwoken, Task.Becomes, hstate]
    exact ⟨rfl, .woken⟩

theorem evolves_setClock (machine : Machine σ) (clock : Nat) :
    Evolves setting machine (machine.setClock clock) := by
  refine ⟨machine.tasks.map (wakeTask clock), [], by simp [setClock], ?_, by simp⟩
  exact List.forall₂_map_right_iff.2 (List.forall₂_same.2 fun task _ => becomes_wakeTask clock task)

theorem Step.evolves {machine after : Machine σ} (hstep : Step setting machine after) :
    Evolves setting machine after := by
  cases hstep with
  | @turn task _ => exact evolves_runTask { machine with queue := machine.queue.erase task } task
  | tick => exact evolves_setClock machine _
  | rest => exact evolves_of_tasks_eq rfl

/-- What holds of all tasks and is kept by every change holds after a step if it
holds of the new tasks. -/
theorem Evolves.forall_tasks {machine after : Machine σ} {p : Task → Prop}
    (hevolves : Evolves setting machine after) (hold : ∀ task ∈ machine.tasks, p task)
    (hbecomes : ∀ task other, p task → task.Becomes other → p other)
    (hnew : ∀ job, machine.MayStart job → p (setting.newTask job)) :
    ∀ task ∈ after.tasks, p task := by
  obtain ⟨moved, jobs, htasks, hmoved, hjobs⟩ := hevolves
  intro task htask
  rw [htasks] at htask
  rcases List.mem_append.1 htask with htask | htask
  · obtain ⟨i, hi, rfl⟩ := List.mem_iff_getElem.1 htask
    have hlength := hmoved.length_eq
    have hget := hmoved.get (by omega) hi
    exact hbecomes _ _ (hold _ (List.getElem_mem _)) hget
  · obtain ⟨job, hjob, rfl⟩ := List.mem_map.1 htask
    exact hnew job (hjobs job hjob)

end Machine

end LivePage
