import LivePage.Proofs.Schedule.Budget

/-!
# Loops without fuel

The loops of a machine count their rounds, and they are given enough of them: a
loop ends because nothing is left to do.  So what it does can be told without
fuel, as a relation between the machine before it and the machine behind it.
-/

namespace LivePage

namespace Machine

/-- The tasks that are ready have their turns, in their order, until none is
left. -/
inductive Settles (setting : Setting σ) : Machine σ → Machine σ → Prop where
  | quiet {machine : Machine σ} : machine.queue = [] → Settles setting machine machine
  | turn {machine after : Machine σ} {task : TaskId} {queue : List TaskId} :
      machine.queue = task :: queue →
      Settles setting ({ machine with queue }.runTask setting task) after →
      Settles setting machine after

theorem Settles.queue_eq_nil {setting : Setting σ} {machine after : Machine σ}
    (hsettles : Settles setting machine after) : after.queue = [] := by
  induction hsettles with
  | quiet hqueue => exact hqueue
  | turn _ _ ih => exact ih

theorem Settles.fueled {setting : Setting σ} {machine after : Machine σ}
    (hsettles : Settles setting machine after) (hfueled : machine.Fueled) : after.Fueled := by
  induction hsettles with
  | quiet => exact hfueled
  | turn _ _ ih => exact ih (Fueled.runTask setting _ hfueled)

theorem Settles.covers {setting : Setting σ} {machine after : Machine σ} {budget : Nat}
    (hsettles : Settles setting machine after) (hcovers : Covers machine.tasks budget) :
    Covers after.tasks budget := by
  induction hsettles generalizing budget with
  | quiet => exact hcovers
  | @turn machine after task queue _ _ ih =>
      have hpopped : Covers { machine with queue }.tasks budget := hcovers
      obtain ⟨left, hleft, hle, -⟩ := hpopped.runTask setting task
      exact (ih hleft).mono hle

/-- Every round of settling takes a task from the queue, and one that is put there
is paid for. -/
theorem settles_settleWithin (setting : Setting σ) {fuel budget : Nat} {machine : Machine σ}
    (hcovers : Covers machine.tasks budget) (hfuel : machine.queue.length + budget ≤ fuel) :
    Settles setting machine (settleWithin setting fuel machine) := by
  induction fuel generalizing machine budget with
  | zero =>
      refine .quiet (List.eq_nil_of_length_eq_zero ?_)
      omega
  | succ fuel ih =>
      rw [settleWithin]
      split
      · next hqueue => exact .quiet hqueue
      · next task queue hqueue =>
          have hpopped : Covers { machine with queue }.tasks budget := hcovers
          obtain ⟨left, hleft, -, hle⟩ := hpopped.runTask setting task
          rw [hqueue, List.length_cons] at hfuel
          have hpoppedFuel : queue.length + budget ≤ fuel := by omega
          exact .turn hqueue (ih hleft (Nat.le_trans hle hpoppedFuel))

theorem settles_settle (setting : Setting σ) {machine : Machine σ} (hfueled : machine.Fueled) :
    Settles setting machine (machine.settle setting) :=
  settles_settleWithin setting hfueled.covers (Nat.le_refl _)

/-- Time passes up to a moment: the tasks settle whenever one of them wakes up. -/
inductive Passes (setting : Setting σ) (deadline : Nat) : Machine σ → Machine σ → Prop where
  | last {machine quiet : Machine σ} :
      Settles setting machine quiet → quiet.nextDeadline?.filter (· < deadline) = none →
      Passes setting deadline machine (quiet.setClock deadline)
  | stop {machine quiet after : Machine σ} {next : Nat} :
      Settles setting machine quiet → quiet.nextDeadline?.filter (· < deadline) = some next →
      Passes setting deadline (quiet.setClock next) after →
      Passes setting deadline machine after

/-- When the clock comes to the next deadline, a task wakes up and has paid for
it. -/
theorem Covers.setClock_next {machine : Machine σ} {budget next : Nat}
    (hcovers : Covers machine.tasks budget) (hnext : machine.nextDeadline? = some next) :
    ∃ left, left < budget ∧ Covers (machine.setClock next).tasks left := by
  obtain ⟨task, htask, hdeadline⟩ := exists_task_of_nextDeadline? hnext
  exact hcovers.map_wakeTask_lt ⟨task, htask, next, hdeadline, Nat.le_refl next⟩

theorem passes_passWithin (setting : Setting σ) (deadline : Nat) {fuel budget : Nat}
    {machine : Machine σ} (hfueled : machine.Fueled) (hcovers : Covers machine.tasks budget)
    (hfuel : budget < fuel) :
    Passes setting deadline machine (passWithin setting deadline fuel machine) := by
  induction fuel generalizing machine budget with
  | zero => exact absurd hfuel (Nat.not_lt_zero budget)
  | succ fuel ih =>
      have hsettles := settles_settle setting hfueled
      rw [passWithin]
      split
      · next next hnext =>
          have hsome := (Option.filter_eq_some_iff.1 hnext).1
          obtain ⟨left, hlt, hleft⟩ := (hsettles.covers hcovers).setClock_next hsome
          exact .stop hsettles hnext
            (ih ((hsettles.fueled hfueled).setClock next) hleft (by omega))
      · next hnone => exact .last hsettles hnone

/-- Letting time pass, without fuel. -/
theorem passes_pass (setting : Setting σ) {machine : Machine σ} (hfueled : machine.Fueled)
    (ms : Nat) :
    Passes setting (machine.clock + ms) (machine.rest setting) (machine.pass setting ms) :=
  passes_passWithin setting _ hfueled hfueled.covers (Nat.lt_succ_self machine.work)

/-- Time passes until a task is over, or until nothing can happen any more. -/
inductive Awaits (setting : Setting σ) (task : TaskId) : Machine σ → Machine σ → Prop where
  | ended {machine : Machine σ} : machine.isOver task = true → Awaits setting task machine machine
  | settled {machine quiet : Machine σ} :
      machine.isOver task = false → Settles setting machine quiet →
      quiet.isOver task = true ∨ quiet.nextDeadline? = none → Awaits setting task machine quiet
  | stop {machine quiet after : Machine σ} {next : Nat} :
      machine.isOver task = false → Settles setting machine quiet → quiet.isOver task = false →
      quiet.nextDeadline? = some next → Awaits setting task (quiet.setClock next) after →
      Awaits setting task machine after

theorem awaits_awaitWithin (setting : Setting σ) (task : TaskId) {fuel budget : Nat}
    {machine : Machine σ} (hfueled : machine.Fueled) (hcovers : Covers machine.tasks budget)
    (hfuel : budget < fuel) :
    Awaits setting task machine (awaitWithin setting task fuel machine) := by
  induction fuel generalizing machine budget with
  | zero => exact absurd hfuel (Nat.not_lt_zero budget)
  | succ fuel ih =>
      rw [awaitWithin]
      cases hover : machine.isOver task with
      | true => exact .ended hover
      | false =>
          have hsettles := settles_settle setting hfueled
          simp only [Bool.false_eq_true, if_false]
          cases hquiet : (machine.settle setting).isOver task with
          | true => exact .settled hover hsettles (.inl hquiet)
          | false =>
              simp only [Bool.false_eq_true, if_false]
              split
              · next next hnext =>
                  obtain ⟨left, hlt, hleft⟩ := (hsettles.covers hcovers).setClock_next hnext
                  exact .stop hover hsettles hquiet hnext
                    (ih ((hsettles.fueled hfueled).setClock next) hleft (by omega))
              · next hnone => exact .settled hover hsettles (.inr hnone)

/-- Waiting for a task, without fuel. -/
theorem awaits_await (setting : Setting σ) {machine : Machine σ} (hfueled : machine.Fueled)
    {task : TaskId} (hover : machine.isOver task = false) :
    Awaits setting task (machine.rest setting) (machine.await setting task) := by
  rw [await, hover]
  exact awaits_awaitWithin setting task hfueled hfueled.covers (Nat.lt_succ_self machine.work)

theorem Awaits.fueled {setting : Setting σ} {task : TaskId} {machine after : Machine σ}
    (hawaits : Awaits setting task machine after) (hfueled : machine.Fueled) : after.Fueled := by
  induction hawaits with
  | ended => exact hfueled
  | settled _ hsettles => exact hsettles.fueled hfueled
  | stop _ hsettles _ _ _ ih => exact ih ((hsettles.fueled hfueled).setClock _)

end Machine

end LivePage
