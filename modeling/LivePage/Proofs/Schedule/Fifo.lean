import LivePage.Proofs.Schedule.Tidy

/-!
# The schedule of the machine

The machine lets its tasks run in the order in which they became ready, and time
passes when none is ready.  That is one of the schedules that are possible, and
under it a task that is waited for comes to its end.
-/

namespace LivePage

namespace Machine

variable {σ : Type} {setting : Setting σ}

theorem Settles.steps {machine after : Machine σ} (hsettles : Settles setting machine after) :
    Steps setting machine after := by
  induction hsettles with
  | quiet => exact .refl
  | @turn machine after task queue hqueue _ ih =>
      have hmem : task ∈ machine.queue := by
        rw [hqueue]
        exact List.mem_cons_self
      have hturn : Step setting machine ({ machine with queue }.runTask setting task) := by
        have hstep : Step setting machine _ := .turn hmem
        rwa [hqueue, List.erase_cons_head] at hstep
      exact .head hturn ih

theorem Settles.clock_eq {machine after : Machine σ} (hsettles : Settles setting machine after) :
    after.clock = machine.clock := by
  induction hsettles with
  | quiet => rfl
  | turn _ _ ih => rw [ih, clock_runTask]

/-- The next deadline has not passed. -/
theorem Orderly.clock_le_nextDeadline? {machine : Machine σ} {next : Nat}
    (horderly : machine.Orderly) (hnext : machine.nextDeadline? = some next) :
    machine.clock ≤ next := by
  obtain ⟨task, htask, hdeadline⟩ := exists_task_of_nextDeadline? hnext
  exact horderly.ahead task htask next hdeadline

theorem Passes.steps {deadline : Nat} {machine after : Machine σ}
    (hpasses : Passes setting deadline machine after) (horderly : machine.Orderly)
    (hclock : machine.clock ≤ deadline) :
    Steps setting machine after ∧ after.clock = deadline := by
  induction hpasses with
  | last hsettles _ =>
      refine ⟨hsettles.steps.tail (.tick ?_), rfl⟩
      rw [hsettles.clock_eq]
      exact hclock
  | @stop machine quiet after next hsettles hnext _ ih =>
      obtain ⟨hsome, hlt⟩ := Option.filter_eq_some_iff.1 hnext
      have hquiet := horderly.steps hsettles.steps
      have htick : Step setting quiet (quiet.setClock next) :=
        .tick (hquiet.clock_le_nextDeadline? hsome)
      have hbefore : next ≤ deadline := Nat.le_of_lt (by simpa using hlt)
      obtain ⟨hsteps, hafter⟩ := ih (hquiet.step htick) hbefore
      exact ⟨hsettles.steps.trans (.head htick hsteps), hafter⟩

theorem Awaits.steps {task : TaskId} {machine after : Machine σ}
    (hawaits : Awaits setting task machine after) (horderly : machine.Orderly) :
    Steps setting machine after := by
  induction hawaits with
  | ended => exact .refl
  | settled _ hsettles => exact hsettles.steps
  | @stop machine quiet after next _ hsettles _ hnext _ ih =>
      have hquiet := horderly.steps hsettles.steps
      have htick : Step setting quiet (quiet.setClock next) :=
        .tick (hquiet.clock_le_nextDeadline? hnext)
      exact hsettles.steps.trans (.head htick (ih (hquiet.step htick)))

/-- Where no task is ready and none waits, all are over. -/
theorem Orderly.isOver_of_idle {machine : Machine σ} {task : TaskId} (horderly : machine.Orderly)
    (hqueue : machine.queue = []) (hnone : machine.nextDeadline? = none)
    (htask : task < machine.tasks.length) : machine.isOver task = true := by
  have hown : machine.tasks[task]? = some machine.tasks[task] := List.getElem?_eq_getElem htask
  refine isOver_iff.2 ⟨_, hown, ?_⟩
  cases hstate : machine.tasks[task].state with
  | ready script =>
      have hqueued := horderly.queued task script (by rw [hown, Option.map_some, hstate])
      rw [hqueue] at hqueued
      exact absurd hqueued List.not_mem_nil
  | waiting deadline script =>
      have hempty := List.min?_eq_none_iff.1 hnone
      have hmem : deadline ∈ machine.tasks.filterMap (·.state.deadline?) :=
        List.mem_filterMap.2 ⟨_, List.getElem_mem htask, by rw [hstate]; rfl⟩
      rw [hempty] at hmem
      exact absurd hmem List.not_mem_nil
  | finished | aborted => rfl

/-- A task that is waited for is over at the end. -/
theorem Awaits.isOver {task : TaskId} {machine after : Machine σ}
    (hawaits : Awaits setting task machine after) (horderly : machine.Orderly)
    (htask : task < machine.tasks.length) : after.isOver task = true := by
  induction hawaits with
  | ended hover => exact hover
  | settled _ hsettles hends =>
      rcases hends with hover | hnone
      · exact hover
      · have hlength := Nat.lt_of_lt_of_le htask hsettles.steps.keeps.length_le
        exact (horderly.steps hsettles.steps).isOver_of_idle hsettles.queue_eq_nil hnone hlength
  | @stop machine quiet after next _ hsettles _ hnext _ ih =>
      have hquiet := horderly.steps hsettles.steps
      have htick : Step setting quiet (quiet.setClock next) :=
        .tick (hquiet.clock_le_nextDeadline? hnext)
      have hsteps : Steps setting machine (quiet.setClock next) := hsettles.steps.tail htick
      exact ih (hquiet.step htick) (Nat.lt_of_lt_of_le htask hsteps.keeps.length_le)

/-- Waiting for a task is a part of a schedule, at whose end the task is over. -/
theorem Orderly.await {machine : Machine σ} (horderly : machine.Orderly) {task : TaskId}
    (htask : task < machine.tasks.length) :
    Steps setting machine (machine.await setting task) ∧
      (machine.await setting task).isOver task = true := by
  cases hover : machine.isOver task with
  | true =>
      rw [Machine.await, if_pos hover]
      exact ⟨.refl, hover⟩
  | false =>
      have hrest : Step setting machine (machine.rest setting) := .rest
      have hawaits := awaits_await setting horderly.fueled hover
      exact ⟨.head hrest (hawaits.steps (horderly.step hrest)),
        hawaits.isOver (horderly.step hrest) htask⟩

theorem Tidy.await {machine : Machine σ} (htidy : machine.Tidy) {task : TaskId}
    (htask : task < machine.tasks.length) :
    Steps setting machine (machine.await setting task) ∧
      (machine.await setting task).isOver task = true :=
  htidy.orderly.await htask

/-- Letting time pass is a part of a schedule. -/
theorem Tidy.pass {machine : Machine σ} (htidy : machine.Tidy) (ms : Nat) :
    Steps setting machine (machine.pass setting ms) ∧
      (machine.pass setting ms).clock = machine.clock + ms := by
  have hrest : Step setting machine (machine.rest setting) := .rest
  obtain ⟨hsteps, hclock⟩ := (passes_pass setting htidy.fueled ms).steps
    (htidy.orderly.step hrest) (Nat.le_add_right ..)
  exact ⟨.head hrest hsteps, hclock⟩

theorem run_request (setting : Setting σ) (message : HttpRequest) (next : HttpReply → Script α)
    (machine : Machine σ) :
    machine.run setting (.request message next) =
      run setting (next (machine.answer setting message).1.reply)
        (if (machine.answer setting message).1.delay = 0 then (machine.answer setting message).2
        else (machine.answer setting message).2.pass setting
          (machine.answer setting message).1.delay) := rfl

/-- In the foreground one script follows the other on the machine that the first one
leaves. -/
theorem run_bind (setting : Setting σ) (script : Script α) (next : α → Script β)
    (machine : Machine σ) :
    machine.run setting (script.bind next) =
      (machine.run setting script).2.run setting (next (machine.run setting script).1) := by
  induction script generalizing machine with
  | done result => rfl
  | perform effect rest ih => exact ih _
  | observe rest ih => exact ih _ machine
  | pause ms rest ih => exact ih _
  | request message rest ih => exact ih _ _
  | start job rest ih => exact ih _ _

/-- A script that the machine runs in the foreground runs under one of the
schedules. -/
theorem Tidy.runs {machine : Machine σ} (htidy : machine.Tidy) (script : Script α) :
    Runs setting script machine (machine.run setting script).1 (machine.run setting script).2 := by
  induction script generalizing machine with
  | done result => exact .done
  | perform effect next ih => exact .perform (ih (htidy.withWorld _))
  | observe next ih => exact .observe (ih _ htidy)
  | pause ms next ih =>
      by_cases hms : ms = 0
      · rw [run, if_pos hms]
        exact .pause .refl (Nat.le_of_eq (by rw [hms, Nat.add_zero])) (ih htidy)
      · obtain ⟨hsteps, hclock⟩ := htidy.pass ms
        rw [run, if_neg hms]
        exact .pause hsteps (Nat.le_of_eq hclock.symm) (ih (htidy.steps hsteps))
  | request message next ih =>
      rw [run_request]
      have hsent := htidy.withWorld (machine.answer setting message).2.world
      by_cases hdelay : (machine.answer setting message).1.delay = 0
      · rw [if_pos hdelay]
        exact .request .refl (Nat.le_of_eq (by rw [hdelay]; rfl)) (ih _ hsent)
      · obtain ⟨hsteps, hclock⟩ := hsent.pass (machine.answer setting message).1.delay
        rw [if_neg hdelay]
        exact .request hsteps (Nat.le_of_eq hclock.symm) (ih _ (hsent.steps hsteps))
  | start job next ih => exact .start (ih _ (htidy.start job))

end Machine

end LivePage
