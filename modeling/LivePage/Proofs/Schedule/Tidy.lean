import LivePage.Proofs.Schedule.Steps

/-!
# What every schedule keeps

Under every schedule tasks stay what they are: the job of a task never changes, a
task that is over stays so, and a task that is ready stands in the queue.  Tasks
start other tasks only inside of branches, so no step of a schedule adds a task
at the top.
-/

namespace LivePage

namespace TaskState

/-- All jobs that a task may still start satisfy a predicate. -/
def Starts (p : Job → Prop) : TaskState → Prop
  | ready script => script.Starts p
  | waiting _ script => script.Starts p
  | _ => True

theorem Becomes.starts {p : Job → Prop} {state after : TaskState} (hbecomes : state.Becomes after)
    (hstarts : state.Starts p) : after.Starts p := by
  cases hbecomes with
  | same | woken => exact hstarts
  | @turned script acts progress clock hof =>
      cases progress with
      | ended outcome => trivial
      | waits ms next => exact (Script.Starts.of_leads hstarts hof.2.1).2

theorem Becomes.within {state after : TaskState} {budget : Nat} (hbecomes : state.Becomes after)
    (hwithin : state.Within budget) : after.Within budget := by
  cases hbecomes with
  | same => exact hwithin
  | woken => exact hwithin.2.mono (Nat.sub_le ..)
  | @turned script acts progress clock hof =>
      obtain ⟨left, hleft, hle⟩ := exists_within_afterTurn clock hwithin hof
      exact hleft.mono (Nat.le_trans (Nat.le_add_right ..) hle)

theorem Becomes.ne_aborted {state after : TaskState} (hbecomes : state.Becomes after)
    (hne : state ≠ .aborted) : after ≠ .aborted := by
  cases hbecomes with
  | same => exact hne
  | woken => simp
  | @turned script acts progress => cases progress <;> simp [afterTurn]

theorem Becomes.eq_of_isOver {state after : TaskState} (hbecomes : state.Becomes after)
    (hover : state.isOver = true) : after = state := by
  cases hbecomes with
  | same => rfl
  | woken | turned => simp [isOver] at hover

end TaskState

theorem Progress.Of.starts {p : Job → Prop} {script : Script α} {acts : List Act}
    {progress : Progress α} (hof : progress.Of script acts) (hstarts : script.Starts p) :
    ∀ job ∈ Act.jobs acts, p job := by
  cases progress with
  | ended result => exact hstarts acts result hof
  | waits ms next => exact (hstarts.of_leads hof.2.1).1

namespace Machine

variable {σ : Type} {setting : Setting σ}

/-- No task waits for a moment that has passed. -/
def Ahead (machine : Machine σ) : Prop :=
  ∀ task ∈ machine.tasks, ∀ deadline, task.state.deadline? = some deadline →
    machine.clock ≤ deadline

/-- What holds of a machine at every moment, even where tasks were aborted. -/
structure Orderly (machine : Machine σ) : Prop where
  /-- No task has more to do than its action is large. -/
  fueled : machine.Fueled
  /-- A task that is ready will have a turn. -/
  queued : ∀ task script,
    (machine.tasks[task]?).map Task.state = some (.ready script) → task ∈ machine.queue
  ahead : machine.Ahead

/-- What holds of a machine at every moment, if no task was aborted. -/
structure Tidy (machine : Machine σ) : Prop where
  /-- No task has more to do than its action is large. -/
  fueled : machine.Fueled
  /-- A task that is ready will have a turn. -/
  queued : ∀ task script,
    (machine.tasks[task]?).map Task.state = some (.ready script) → task ∈ machine.queue
  unaborted : ∀ task ∈ machine.tasks, task.state ≠ .aborted
  ahead : machine.Ahead
  /-- Tasks start other tasks inside of branches, and only if there is a detached
  action in one. -/
  nested : ∀ task ∈ machine.tasks,
    task.state.Starts fun job => 0 < job.depth ∧ task.job.action.isPlain = false

theorem Tidy.orderly {machine : Machine σ} (htidy : machine.Tidy) : machine.Orderly :=
  ⟨htidy.fueled, htidy.queued, htidy.ahead⟩

theorem tidy_of_tasks_eq_nil {machine : Machine σ} (hnone : machine.tasks = []) :
    machine.Tidy where
  fueled := by simp [Fueled, hnone]
  queued := by simp [hnone]
  unaborted := by simp [hnone]
  ahead := by simp [Ahead, hnone]
  nested := by simp [hnone]

/-- The state of the world does not matter. -/
theorem Orderly.withWorld {machine : Machine σ} (horderly : machine.Orderly) (world : World σ) :
    { machine with world }.Orderly :=
  ⟨horderly.fueled, horderly.queued, horderly.ahead⟩

theorem Tidy.withWorld {machine : Machine σ} (htidy : machine.Tidy) (world : World σ) :
    { machine with world }.Tidy :=
  ⟨htidy.fueled, htidy.queued, htidy.unaborted, htidy.ahead, htidy.nested⟩

theorem starts_newTask (setting : Setting σ) (job : Job) :
    (setting.newTask job).state.Starts fun other =>
      0 < other.depth ∧ job.action.isPlain = false :=
  (setting.engine.starts_runAction job.depth job.context job.action).mono fun _ hother =>
    ⟨Nat.zero_lt_of_lt hother.1, hother.2⟩

theorem MayStart.nested {machine : Machine σ} {job : Job} (htidy : machine.Tidy)
    (hmay : machine.MayStart job) :
    0 < job.depth ∧ ∃ task ∈ machine.tasks, task.job.action.isPlain = false := by
  obtain ⟨task, htask, script, acts, progress, hstate, hof, hjob⟩ := hmay
  have hstarts := htidy.nested task htask
  rw [hstate] at hstarts
  obtain ⟨hdepth, hplain⟩ := hof.starts hstarts job hjob
  exact ⟨hdepth, task, htask, hplain⟩

theorem afterTurn_ne_ready (clock : Nat) (progress : Progress Outcome)
    (script : Script Outcome) : TaskState.afterTurn clock progress ≠ .ready script := by
  cases progress <;> simp [TaskState.afterTurn]

/-- Behind a turn the tasks that are ready stand in the queue, if all but the one
that had the turn did so before. -/
theorem queued_runTask {machine : Machine σ} {task : TaskId}
    (hothers : ∀ other script, (machine.tasks[other]?).map Task.state = some (.ready script) →
      other ≠ task → other ∈ machine.queue) :
    ∀ other script,
      ((machine.runTask setting task).tasks[other]?).map Task.state = some (.ready script) →
        other ∈ (machine.runTask setting task).queue := by
  intro other script hscript
  by_cases hready : ∃ script, (machine.tasks[task]?).map Task.state = some (.ready script)
  · obtain ⟨current, hready⟩ := hready
    obtain ⟨before, own, behind, acts, progress, hsplit, hlength, -, -, htasks, hqueue, -⟩ :=
      runTask_spec setting machine hready
    have hset : before ++ { own with state := .afterTurn machine.clock progress } ::
        (behind ++ (Act.jobs acts).map setting.newTask) =
        machine.tasks.set task { own with state := .afterTurn machine.clock progress } ++
          (Act.jobs acts).map setting.newTask := by
      simp [hsplit, ← hlength]
    rw [hqueue]
    rw [htasks, hset, List.getElem?_append, List.length_set] at hscript
    split at hscript
    · next hold =>
        by_cases hother : other = task
        · rw [hother, List.getElem?_set_self (hother ▸ hold), Option.map_some] at hscript
          exact absurd (Option.some.inj hscript) (afterTurn_ne_ready _ _ _)
        · rw [List.getElem?_set_ne (Ne.symm hother)] at hscript
          exact List.mem_append_left _ (hothers other script hscript hother)
    · next hnew =>
        -- a new task stands at the end of the queue
        obtain ⟨fresh, hfresh, -⟩ := Option.map_eq_some_iff.1 hscript
        have hindex := (List.getElem?_eq_some_iff.1 hfresh).1
        rw [List.length_map] at hindex
        refine List.mem_append_right _ (List.mem_range'_1.2 ⟨by omega, by omega⟩)
  · rw [runTask_of_not_ready setting hready] at hscript ⊢
    apply hothers other script hscript
    rintro rfl
    exact hready ⟨script, hscript⟩

theorem Step.queued {machine after : Machine σ} (hstep : Step setting machine after)
    (hqueued : ∀ task script,
      (machine.tasks[task]?).map Task.state = some (.ready script) → task ∈ machine.queue) :
    ∀ task script,
      (after.tasks[task]?).map Task.state = some (.ready script) → task ∈ after.queue := by
  cases hstep with
  | @turn task htask =>
      apply queued_runTask
      intro other script hscript hother
      exact (List.mem_erase_of_ne hother).2 (hqueued other script hscript)
  | @tick clock hclock =>
      intro task script hscript
      obtain ⟨woken, hwoken, hstate⟩ := Option.map_eq_some_iff.1 hscript
      have hmap : (machine.tasks.map (wakeTask clock))[task]? = some woken := hwoken
      rw [List.getElem?_map] at hmap
      obtain ⟨old, hold, rfl⟩ := Option.map_eq_some_iff.1 hmap
      rcases wakeTask_cases clock old with ⟨hsame, -⟩ | ⟨deadline, waiting, hwaiting, hle, -⟩
      · rw [hsame] at hstate
        exact List.mem_append_left _ (hqueued task script (by rw [hold, Option.map_some, hstate]))
      · have hdue : task ∈ dueTasks clock machine.tasks := by
          refine List.mem_filter.2 ⟨List.mem_range.2 ?_, ?_⟩
          · exact (List.getElem?_eq_some_iff.1 hold).1
          · simp [hold, hwaiting, TaskState.deadline?, hle]
        exact List.mem_append_right _ hdue
  | rest => exact hqueued

theorem Ahead.runTask {machine : Machine σ} (hahead : machine.Ahead) (task : TaskId) :
    (machine.runTask setting task).Ahead := by
  by_cases hready : ∃ script, (machine.tasks[task]?).map Task.state = some (.ready script)
  · obtain ⟨script, hready⟩ := hready
    obtain ⟨before, own, behind, acts, progress, hsplit, -, -, -, htasks, -, hclock⟩ :=
      runTask_spec setting machine hready
    intro other hother deadline hdeadline
    rw [hclock]
    rw [htasks] at hother
    simp only [List.mem_append, List.mem_cons, List.mem_map] at hother
    rcases hother with hbefore | rfl | hbehind | ⟨job, -, rfl⟩
    · exact hahead other (by simp [hsplit, hbefore]) deadline hdeadline
    · cases progress with
      | ended outcome => simp [TaskState.afterTurn, TaskState.deadline?] at hdeadline
      | waits ms next =>
          rw [← Option.some.inj hdeadline]
          exact Nat.le_add_right ..
    · exact hahead other (by simp [hsplit, hbehind]) deadline hdeadline
    · simp [Setting.newTask, TaskState.deadline?] at hdeadline
  · rw [runTask_of_not_ready setting hready]
    exact hahead

theorem ahead_setClock (machine : Machine σ) (clock : Nat) : (machine.setClock clock).Ahead := by
  intro other hother deadline hdeadline
  obtain ⟨task, htask, rfl⟩ := List.mem_map.1 hother
  rcases wakeTask_cases clock task with ⟨hsame, hlate⟩ | ⟨waiting, script, -, -, hwoken⟩
  · rw [hsame] at hdeadline
    exact Nat.le_of_lt (hlate deadline hdeadline)
  · simp [hwoken, TaskState.deadline?] at hdeadline

theorem Step.ahead {machine after : Machine σ} (hstep : Step setting machine after)
    (hahead : machine.Ahead) : after.Ahead := by
  cases hstep with
  | turn =>
      have hpopped (queue : List TaskId) : { machine with queue }.Ahead := hahead
      exact (hpopped _).runTask _
  | tick => exact ahead_setClock machine _
  | rest => exact hahead

theorem Orderly.step {machine after : Machine σ} (horderly : machine.Orderly)
    (hstep : Step setting machine after) : after.Orderly where
  fueled := by
    refine hstep.evolves.forall_tasks horderly.fueled (fun task other hwithin hbecomes => ?_)
      fun job _ => (within_newTask setting job).mono (Nat.sub_le ..)
    rw [hbecomes.1]
    exact hbecomes.2.within hwithin
  queued := hstep.queued horderly.queued
  ahead := hstep.ahead horderly.ahead

theorem Orderly.steps {machine after : Machine σ} (horderly : machine.Orderly)
    (hsteps : Steps setting machine after) : after.Orderly := by
  induction hsteps with
  | refl => exact horderly
  | tail _ hstep ih => exact ih.step hstep

theorem Tidy.step {machine after : Machine σ} (htidy : machine.Tidy)
    (hstep : Step setting machine after) : after.Tidy where
  fueled := (htidy.orderly.step hstep).fueled
  queued := (htidy.orderly.step hstep).queued
  unaborted := by
    refine hstep.evolves.forall_tasks htidy.unaborted
      (fun task other hne hbecomes => hbecomes.2.ne_aborted hne) fun job _ => ?_
    simp [Setting.newTask]
  ahead := (htidy.orderly.step hstep).ahead
  nested := by
    refine hstep.evolves.forall_tasks htidy.nested (fun task other hstarts hbecomes => ?_)
      fun job _ => starts_newTask setting job
    rw [hbecomes.1]
    exact hbecomes.2.starts hstarts

theorem Tidy.steps {machine after : Machine σ} (htidy : machine.Tidy)
    (hsteps : Steps setting machine after) : after.Tidy := by
  induction hsteps with
  | refl => exact htidy
  | tail _ hstep ih => exact ih.step hstep

/-- A job that is started in the foreground. -/
theorem Orderly.start {machine : Machine σ} (horderly : machine.Orderly) (job : Job) :
    (machine.start setting job).2.Orderly where
  fueled := horderly.fueled.start setting job
  queued := by
    intro task script hscript
    simp only [Machine.start, List.getElem?_append] at hscript
    split at hscript
    · exact List.mem_append_left _ (horderly.queued task script hscript)
    · next hlength =>
        obtain ⟨fresh, hfresh, -⟩ := Option.map_eq_some_iff.1 hscript
        have hindex := (List.getElem?_eq_some_iff.1 hfresh).1
        rw [List.length_singleton] at hindex
        refine List.mem_append_right _ (List.mem_singleton.2 ?_)
        exact Nat.le_antisymm (by omega) (by omega)
  ahead := by
    intro task htask deadline hdeadline
    rcases List.mem_append.1 htask with htask | htask
    · exact horderly.ahead task htask deadline hdeadline
    · rw [List.mem_singleton.1 htask] at hdeadline
      simp [TaskState.deadline?] at hdeadline

theorem Tidy.start {machine : Machine σ} (htidy : machine.Tidy) (job : Job) :
    (machine.start setting job).2.Tidy where
  fueled := (htidy.orderly.start job).fueled
  queued := (htidy.orderly.start job).queued
  unaborted := by
    intro task htask
    rcases List.mem_append.1 htask with htask | htask
    · exact htidy.unaborted task htask
    · rw [List.mem_singleton.1 htask]
      simp
  ahead := (htidy.orderly.start job).ahead
  nested := by
    intro task htask
    rcases List.mem_append.1 htask with htask | htask
    · exact htidy.nested task htask
    · rw [List.mem_singleton.1 htask]
      exact starts_newTask setting job

/-- The tasks of a machine are still there: with their jobs, and with their ends
if they are over. -/
def Keeps (machine after : Machine σ) : Prop :=
  ∀ (i : TaskId) (task : Task), machine.tasks[i]? = some task →
    ∃ other : Task, after.tasks[i]? = some other ∧ other.job = task.job ∧
      (task.state.isOver = true → other.state = task.state)

theorem Keeps.refl (machine : Machine σ) : machine.Keeps machine :=
  fun _ task htask => ⟨task, htask, rfl, fun _ => rfl⟩

theorem Keeps.trans {first second third : Machine σ} (hfirst : first.Keeps second)
    (hsecond : second.Keeps third) : first.Keeps third := by
  intro i task htask
  obtain ⟨other, hother, hjob, hover⟩ := hfirst i task htask
  obtain ⟨last, hlast, hjob', hover'⟩ := hsecond i other hother
  refine ⟨last, hlast, hjob'.trans hjob, fun hstate => ?_⟩
  rw [hover' (by rw [hover hstate, hstate]), hover hstate]

theorem getElem?_of_forall₂ {r : Task → Task → Prop} {first second : List Task}
    (hforall : List.Forall₂ r first second) {i : Nat} {task : Task}
    (htask : first[i]? = some task) :
    ∃ other, second[i]? = some other ∧ r task other := by
  induction hforall generalizing i with
  | nil => simp at htask
  | @cons own other _ _ hown _ ih =>
      cases i with
      | zero => exact ⟨other, rfl, by simpa [← Option.some.inj htask] using hown⟩
      | succ i => exact ih htask

theorem Grows.keeps {machine after : Machine σ} (hgrows : Grows setting machine after) :
    machine.Keeps after := by
  intro i task htask
  obtain ⟨moved, jobs, htasks, hmoved⟩ := hgrows
  obtain ⟨other, hother, hbecomes⟩ := getElem?_of_forall₂ hmoved htask
  refine ⟨other, ?_, hbecomes.1, fun hover => hbecomes.2.eq_of_isOver hover⟩
  rw [htasks, List.getElem?_append_left (List.getElem?_eq_some_iff.1 hother).1, hother]

theorem Step.keeps {machine after : Machine σ} (hstep : Step setting machine after) :
    machine.Keeps after :=
  hstep.evolves.grows.keeps

theorem Steps.keeps {machine after : Machine σ} (hsteps : Steps setting machine after) :
    machine.Keeps after := by
  induction hsteps with
  | refl => exact .refl machine
  | tail _ hstep ih => exact ih.trans hstep.keeps

theorem keeps_start (machine : Machine σ) (job : Job) :
    machine.Keeps (machine.start setting job).2 := by
  intro i task htask
  refine ⟨task, ?_, rfl, fun _ => rfl⟩
  have hlength := (List.getElem?_eq_some_iff.1 htask).1
  rw [start, List.getElem?_append_left hlength, htask]

theorem Keeps.length_le {machine after : Machine σ} (hkeeps : machine.Keeps after) :
    machine.tasks.length ≤ after.tasks.length := by
  by_contra hlt
  obtain ⟨other, hother, -⟩ := hkeeps after.tasks.length _
    (List.getElem?_eq_getElem (Nat.lt_of_not_le hlt))
  exact Nat.lt_irrefl _ (List.getElem?_eq_some_iff.1 hother).1

theorem isOver_iff {machine : Machine σ} {task : TaskId} :
    machine.isOver task = true ↔
      ∃ own, machine.tasks[task]? = some own ∧ own.state.isOver = true := by
  cases htask : machine.tasks[task]? with
  | none => simp [isOver, outcome?, htask]
  | some own =>
      cases hstate : own.state <;> simp [isOver, outcome?, htask, hstate, TaskState.isOver]

theorem Keeps.isOver {machine after : Machine σ} (hkeeps : machine.Keeps after) {task : TaskId}
    (hover : machine.isOver task = true) : after.isOver task = true := by
  obtain ⟨own, hown, hstate⟩ := isOver_iff.1 hover
  obtain ⟨other, hother, -, hsame⟩ := hkeeps task own hown
  exact isOver_iff.2 ⟨other, hother, by rw [hsame hstate, hstate]⟩

end Machine

end LivePage
