import LivePage.Proofs.Run.Starts
import LivePage.Proofs.Schedule.Turn

/-!
# Budgets of tasks

Every turn of a task and every moment at which a task wakes up is paid for by the
budget of some task, and the budgets of all tasks together are no more than the
work that a machine counts.
-/

namespace LivePage

namespace Act

/-- What the tasks of some jobs cost. -/
def prices : List Job → Nat
  | [] => 0
  | job :: rest => 3 * job.action.size + prices rest

theorem prices_append (first second : List Job) :
    prices (first ++ second) = prices first + prices second := by
  induction first with
  | nil => exact (Nat.zero_add (prices second)).symm
  | cons job rest ih => rw [List.cons_append, prices, prices, ih, Nat.add_assoc]

/-- What the tasks cost that some acts start. -/
def price (acts : List Act) : Nat :=
  prices (jobs acts)

@[simp]
theorem price_append (first second : List Act) :
    price (first ++ second) = price first + price second := by
  rw [price, jobs_append, prices_append]
  rfl

theorem price_le_costs (acts : List Act) : price acts ≤ costs acts := by
  induction acts with
  | nil => exact Nat.le_refl 0
  | cons act rest ih =>
      have hact : price [act] ≤ cost act := by
        cases act with
        | started job task => exact Nat.le_refl (3 * job.action.size)
        | _ => exact Nat.zero_le _
      rw [← List.singleton_append, price_append, List.singleton_append, costs]
      exact Nat.add_le_add hact ih

theorem price_of_cost_eq_one {act : Act} (hcost : act.cost = 1) : price [act] = 0 := by
  cases act with
  | started job task =>
      simp only [cost] at hcost
      omega
  | _ => rfl

end Act

namespace TaskState

/-- What is left to do for a task is within a budget.  A task that waits still
has to pay for it. -/
def Within : TaskState → Nat → Prop
  | ready script, budget => script.Within budget
  | waiting _ script, budget => 1 ≤ budget ∧ script.Within (budget - 1)
  | _, _ => True

theorem Within.mono {state : TaskState} {budget larger : Nat} (hwithin : state.Within budget)
    (hle : budget ≤ larger) : state.Within larger := by
  cases state with
  | ready script => exact Script.Within.mono hwithin hle
  | waiting deadline script =>
      exact ⟨Nat.le_trans hwithin.1 hle, hwithin.2.mono (Nat.sub_le_sub_right hle 1)⟩
  | finished | aborted => trivial

/-- A turn pays for the tasks that it starts. -/
theorem exists_within_afterTurn {script : Script Outcome} {acts : List Act}
    {progress : Progress Outcome} {budget : Nat} (clock : Nat) (hwithin : script.Within budget)
    (hof : progress.Of script acts) :
    ∃ left, (afterTurn clock progress).Within left ∧ left + Act.price acts ≤ budget := by
  cases progress with
  | ended outcome =>
      refine ⟨0, trivial, ?_⟩
      rw [Nat.zero_add]
      exact Nat.le_trans (Act.price_le_costs acts) (hwithin acts outcome hof)
  | waits ms next =>
      obtain ⟨-, hleads, before, act, rfl, hcost⟩ := hof
      obtain ⟨hcosts, hnext⟩ := hwithin.of_leads hleads
      have hact : Act.costs [act] = 1 := by simp [Act.costs, hcost]
      have hprice := Act.price_le_costs before
      rw [Act.costs_append, hact] at hcosts hnext
      refine ⟨budget - Act.costs before, ⟨by omega, ?_⟩, ?_⟩
      · rw [Nat.sub_sub]
        exact hnext
      · rw [Act.price_append, Act.price_of_cost_eq_one hcost]
        omega

end TaskState

namespace Machine

/-- The tasks together are within a budget. -/
def Covers : List Task → Nat → Prop
  | [], _ => True
  | task :: rest, budget =>
      ∃ own others, own + others ≤ budget ∧ task.state.Within own ∧ Covers rest others

theorem Covers.mono {tasks : List Task} {budget larger : Nat} (hcovers : Covers tasks budget)
    (hle : budget ≤ larger) : Covers tasks larger := by
  cases tasks with
  | nil => trivial
  | cons task rest =>
      obtain ⟨own, others, hsum, hown, hothers⟩ := hcovers
      exact ⟨own, others, Nat.le_trans hsum hle, hown, hothers⟩

theorem covers_append_iff {first second : List Task} {budget : Nat} :
    Covers (first ++ second) budget ↔
      ∃ one other, one + other ≤ budget ∧ Covers first one ∧ Covers second other := by
  induction first generalizing budget with
  | nil =>
      constructor
      · intro hcovers
        exact ⟨0, budget, by omega, trivial, hcovers⟩
      · rintro ⟨one, other, hsum, -, hcovers⟩
        exact hcovers.mono (by omega)
  | cons task rest ih =>
      constructor
      · rintro ⟨own, others, hsum, hown, hothers⟩
        obtain ⟨one, other, hle, hone, hother⟩ := ih.1 hothers
        exact ⟨own + one, other, by omega, ⟨own, one, Nat.le_refl _, hown, hone⟩, hother⟩
      · rintro ⟨one, other, hsum, ⟨own, others, hle, hown, hothers⟩, hother⟩
        refine ⟨own, others + other, by omega, hown, ?_⟩
        exact ih.2 ⟨others, other, Nat.le_refl _, hothers, hother⟩

/-- A new task has paid for its first turn. -/
theorem within_newTask (setting : Setting σ) (job : Job) :
    (setting.newTask job).state.Within (3 * job.action.size - 1) :=
  setting.engine.within_runAction job.depth job.context job.action

theorem exists_covers_newTasks (setting : Setting σ) (acts : List Act) :
    ∃ left, Covers ((Act.jobs acts).map setting.newTask) left ∧
      left + (Act.jobs acts).length ≤ Act.price acts := by
  rw [Act.price]
  induction Act.jobs acts with
  | nil => exact ⟨0, trivial, Nat.le_refl 0⟩
  | cons job rest ih =>
      obtain ⟨left, hcovers, hle⟩ := ih
      have hsize := job.action.size_pos
      refine ⟨3 * job.action.size - 1 + left,
        ⟨_, _, Nat.le_refl _, within_newTask setting job, hcovers⟩, ?_⟩
      rw [Act.prices, List.length_cons]
      omega

/-- The tasks that were only started are within the size of their actions. -/
def Fueled (machine : Machine σ) : Prop :=
  ∀ task ∈ machine.tasks, task.state.Within (3 * task.job.action.size)

theorem Fueled.covers {machine : Machine σ} (hfueled : machine.Fueled) :
    Covers machine.tasks machine.work := by
  rw [Fueled] at hfueled
  rw [work]
  generalize machine.tasks = tasks at hfueled
  induction tasks with
  | nil => trivial
  | cons task rest ih =>
      refine ⟨_, _, Nat.le_refl _, ?_, ih fun other hother => hfueled other (.tail task hother)⟩
      have htask := hfueled task (.head rest)
      cases hstate : task.state with
      | finished | aborted => trivial
      | ready | waiting =>
          rw [hstate] at htask
          exact htask

/-- Every turn is paid for: by the task that was ready, or by the one that started
it. -/
theorem Covers.runTask {machine : Machine σ} {budget : Nat} (setting : Setting σ) (task : TaskId)
    (hcovers : Covers machine.tasks budget) :
    ∃ left, Covers (machine.runTask setting task).tasks left ∧ left ≤ budget ∧
      (machine.runTask setting task).queue.length + left ≤ machine.queue.length + budget := by
  by_cases hready : ∃ script, (machine.tasks[task]?).map Task.state = some (.ready script)
  · obtain ⟨script, hready⟩ := hready
    obtain ⟨before, own, behind, acts, progress, hsplit, -, hstate, hof, htasks, hqueue, -⟩ :=
      runTask_spec setting machine hready
    rw [hsplit, covers_append_iff] at hcovers
    obtain ⟨one, _, hsum, hbefore, mine, other, hle, hown, hbehind⟩ := hcovers
    rw [hstate] at hown
    obtain ⟨left, hleft, hprice⟩ :=
      TaskState.exists_within_afterTurn machine.clock hown hof
    obtain ⟨fresh, hfresh, hlength⟩ := exists_covers_newTasks setting acts
    refine ⟨one + (left + (other + fresh)), ?_, by omega, ?_⟩
    · rw [htasks]
      refine covers_append_iff.2 ⟨one, _, Nat.le_refl _, hbefore, left, _, Nat.le_refl _, hleft, ?_⟩
      exact covers_append_iff.2 ⟨other, fresh, Nat.le_refl _, hbehind, hfresh⟩
    · rw [hqueue, List.length_append, List.length_range']
      omega
  · rw [runTask_of_not_ready setting hready]
    exact ⟨budget, hcovers, Nat.le_refl _, Nat.le_refl _⟩

theorem Fueled.runTask {machine : Machine σ} (setting : Setting σ) (task : TaskId)
    (hfueled : machine.Fueled) : (machine.runTask setting task).Fueled := by
  by_cases hready : ∃ script, (machine.tasks[task]?).map Task.state = some (.ready script)
  · obtain ⟨script, hready⟩ := hready
    obtain ⟨before, own, behind, acts, progress, hsplit, -, hstate, hof, htasks, -, -⟩ :=
      runTask_spec setting machine hready
    rw [Fueled, hsplit] at hfueled
    rw [Fueled, htasks]
    intro other hother
    have hown := hfueled own (by simp)
    rw [hstate] at hown
    obtain ⟨left, hleft, hle⟩ := TaskState.exists_within_afterTurn machine.clock hown hof
    simp only [List.mem_append, List.mem_cons, List.mem_map] at hother
    rcases hother with hbefore | rfl | hbehind | ⟨job, -, rfl⟩
    · exact hfueled other (by simp [hbefore])
    · exact hleft.mono (Nat.le_trans (Nat.le_add_right left _) hle)
    · exact hfueled other (by simp [hbehind])
    · exact (within_newTask setting job).mono (Nat.sub_le ..)
  · rw [runTask_of_not_ready setting hready]
    exact hfueled

/-- A job that is started in the foreground. -/
theorem Fueled.start {machine : Machine σ} (setting : Setting σ) (job : Job)
    (hfueled : machine.Fueled) : (machine.start setting job).2.Fueled := by
  intro task htask
  rcases List.mem_append.1 htask with htask | htask
  · exact hfueled task htask
  · rw [List.mem_singleton.1 htask]
    exact (within_newTask setting job).mono (Nat.sub_le ..)

/-- A task stays as it is, or the moment that it waited for has come. -/
theorem wakeTask_cases (clock : Nat) (task : Task) :
    (wakeTask clock task = task ∧
      ∀ deadline, task.state.deadline? = some deadline → clock < deadline) ∨
    ∃ deadline script, task.state = .waiting deadline script ∧ deadline ≤ clock ∧
      wakeTask clock task = { task with state := .ready script } := by
  rw [wakeTask]
  cases hstate : task.state with
  | waiting deadline script =>
      by_cases hdue : deadline ≤ clock
      · exact .inr ⟨deadline, script, rfl, hdue, if_pos hdue⟩
      · refine .inl ⟨if_neg hdue, fun other hother => ?_⟩
        rw [← Option.some.inj hother]
        exact Nat.lt_of_not_le hdue
  | ready | finished | aborted => exact .inl ⟨rfl, by simp [TaskState.deadline?]⟩

theorem within_wakeTask {clock : Nat} {task : Task} {budget : Nat}
    (hwithin : task.state.Within budget) : (wakeTask clock task).state.Within budget := by
  rcases wakeTask_cases clock task with ⟨hsame, -⟩ | ⟨deadline, script, hstate, -, hwoken⟩
  · rwa [hsame]
  · rw [hstate] at hwithin
    rw [hwoken]
    exact hwithin.2.mono (Nat.sub_le ..)

theorem Covers.map_wakeTask {tasks : List Task} {budget : Nat} (clock : Nat)
    (hcovers : Covers tasks budget) : Covers (tasks.map (wakeTask clock)) budget := by
  induction tasks generalizing budget with
  | nil => trivial
  | cons task rest ih =>
      obtain ⟨own, others, hsum, hown, hothers⟩ := hcovers
      exact ⟨own, others, hsum, within_wakeTask hown, ih hothers⟩

/-- A task that wakes up has paid for it. -/
theorem Covers.map_wakeTask_lt {tasks : List Task} {budget clock : Nat}
    (hcovers : Covers tasks budget)
    (hdue : ∃ task ∈ tasks, ∃ deadline, task.state.deadline? = some deadline ∧ deadline ≤ clock) :
    ∃ left, left < budget ∧ Covers (tasks.map (wakeTask clock)) left := by
  obtain ⟨task, htask, deadline, hdeadline, hle⟩ := hdue
  obtain ⟨before, behind, rfl⟩ := List.append_of_mem htask
  obtain ⟨one, _, hsum, hbefore, own, others, hle', hown, hothers⟩ := covers_append_iff.1 hcovers
  obtain ⟨script, hstate⟩ : ∃ script, task.state = .waiting deadline script := by
    cases hstate : task.state <;> simp_all [TaskState.deadline?]
  rw [hstate] at hown
  refine ⟨one + (own - 1 + others), by have := hown.1; omega, ?_⟩
  rw [List.map_append, List.map_cons]
  refine covers_append_iff.2 ⟨one, _, Nat.le_refl _, hbefore.map_wakeTask clock,
    own - 1, others, Nat.le_refl _, ?_, hothers.map_wakeTask clock⟩
  rw [wakeTask, hstate]
  simp only [hle, if_true]
  exact hown.2

theorem job_wakeTask (clock : Nat) (task : Task) : (wakeTask clock task).job = task.job := by
  rcases wakeTask_cases clock task with ⟨hsame, -⟩ | ⟨deadline, script, -, -, hwoken⟩
  · rw [hsame]
  · rw [hwoken]

theorem Fueled.setClock {machine : Machine σ} (clock : Nat) (hfueled : machine.Fueled) :
    (machine.setClock clock).Fueled := by
  intro other hother
  obtain ⟨task, htask, rfl⟩ := List.mem_map.1 hother
  rw [job_wakeTask]
  exact within_wakeTask (hfueled task htask)

theorem exists_task_of_nextDeadline? {machine : Machine σ} {next : Nat}
    (hnext : machine.nextDeadline? = some next) :
    ∃ task ∈ machine.tasks, task.state.deadline? = some next :=
  List.mem_filterMap.1 (List.min?_mem hnext)

end Machine

end LivePage
