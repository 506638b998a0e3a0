import LivePage.Proofs.Schedule.Loops
import LivePage.Schedule.Interrupt

/-!
# Interrupted runs without fuel

Time that passes unless a test holds, told as a relation.  The test is asked
whenever no task is ready, before the clock moves on, so how a run goes on under
all tests shows the surroundings at each moment of it.  Under a test that never
holds the run is an ordinary one.
-/

namespace LivePage

namespace Machine

variable {σ : Type} {setting : Setting σ}

/-- Time passes up to a moment unless the test holds once no task is ready; the
result tells whether it did. -/
inductive PassesUnless (setting : Setting σ) (stop : σ → Bool) (deadline : Nat) :
    Machine σ → Bool × Machine σ → Prop where
  | stopped {machine quiet : Machine σ} :
      Settles setting machine quiet → stop quiet.world.host = true →
      PassesUnless setting stop deadline machine (true, quiet)
  | last {machine quiet : Machine σ} :
      Settles setting machine quiet → stop quiet.world.host = false →
      quiet.nextDeadline?.filter (· < deadline) = none →
      PassesUnless setting stop deadline machine (false, quiet.setClock deadline)
  | wake {machine quiet : Machine σ} {result : Bool × Machine σ} {next : Nat} :
      Settles setting machine quiet → stop quiet.world.host = false →
      quiet.nextDeadline?.filter (· < deadline) = some next →
      PassesUnless setting stop deadline (quiet.setClock next) result →
      PassesUnless setting stop deadline machine result

theorem PassesUnless.fueled {stop : σ → Bool} {deadline : Nat} {machine : Machine σ}
    {result : Bool × Machine σ} (hpasses : PassesUnless setting stop deadline machine result)
    (hfueled : machine.Fueled) : result.2.Fueled := by
  induction hpasses with
  | stopped hsettles => exact hsettles.fueled hfueled
  | last hsettles => exact (hsettles.fueled hfueled).setClock deadline
  | wake hsettles _ _ _ ih => exact ih ((hsettles.fueled hfueled).setClock _)

theorem passesUnless_passUnlessWithin (setting : Setting σ) (stop : σ → Bool) (deadline : Nat)
    {fuel budget : Nat} {machine : Machine σ} (hfueled : machine.Fueled)
    (hcovers : Covers machine.tasks budget) (hfuel : budget < fuel) :
    PassesUnless setting stop deadline machine
      (passUnlessWithin setting stop deadline fuel machine) := by
  induction fuel generalizing machine budget with
  | zero => exact absurd hfuel (Nat.not_lt_zero budget)
  | succ fuel ih =>
      have hsettles := settles_settle setting hfueled
      rw [passUnlessWithin]
      cases hstop : stop (machine.settle setting).world.host with
      | true => exact .stopped hsettles hstop
      | false =>
          simp only [Bool.false_eq_true, if_false]
          split
          · next next hnext =>
              have hsome := (Option.filter_eq_some_iff.1 hnext).1
              obtain ⟨left, hlt, hleft⟩ := (hsettles.covers hcovers).setClock_next hsome
              exact .wake hsettles hstop hnext
                (ih ((hsettles.fueled hfueled).setClock next) hleft (by omega))
          · next hnone => exact .last hsettles hstop hnone

/-- Letting time pass unless a test holds, without fuel. -/
theorem passesUnless_passUnless (setting : Setting σ) (stop : σ → Bool) {machine : Machine σ}
    (hfueled : machine.Fueled) {ms : Nat} (hms : ms ≠ 0) :
    PassesUnless setting stop (machine.clock + ms) (machine.rest setting)
      (machine.passUnless setting stop ms) := by
  rw [passUnless, if_neg hms]
  exact passesUnless_passUnlessWithin setting stop _ hfueled hfueled.covers
    (Nat.lt_succ_self machine.work)

theorem passUnlessWithin_never (setting : Setting σ) (deadline fuel : Nat) (machine : Machine σ) :
    passUnlessWithin setting (fun _ => false) deadline fuel machine =
      (false, passWithin setting deadline fuel machine) := by
  induction fuel generalizing machine with
  | zero => rfl
  | succ fuel ih =>
      rw [passUnlessWithin, passWithin]
      simp only [Bool.false_eq_true, if_false]
      cases (machine.settle setting).nextDeadline?.filter (· < deadline) with
      | none => rfl
      | some next => exact ih _

theorem passUnless_never (setting : Setting σ) (machine : Machine σ) (ms : Nat) :
    machine.passUnless setting (fun _ => false) ms =
      (false, if ms = 0 then machine else machine.pass setting ms) := by
  rw [passUnless]
  split
  · rfl
  · exact passUnlessWithin_never ..

theorem runUnless_pause (setting : Setting σ) (stop : σ → Bool) (ms : Nat) (next : Script α)
    (machine : Machine σ) :
    machine.runUnless setting stop (.pause ms next) =
      if (machine.passUnless setting stop ms).1 then (none, (machine.passUnless setting stop ms).2)
      else (machine.passUnless setting stop ms).2.runUnless setting stop next := by
  rw [runUnless]
  rcases machine.passUnless setting stop ms with ⟨_ | _, after⟩ <;> rfl

theorem runUnless_request (setting : Setting σ) (stop : σ → Bool) (message : HttpRequest)
    (next : HttpReply → Script α) (machine : Machine σ) :
    machine.runUnless setting stop (.request message next) =
      ((machine.answer setting message).2.runUnless setting stop
        (.pause (machine.answer setting message).1.delay
          (next (machine.answer setting message).1.reply))) := rfl

/-- With a test that never holds a run comes to its end as it does without one. -/
theorem runUnless_never (setting : Setting σ) (script : Script α) (machine : Machine σ) :
    machine.runUnless setting (fun _ => false) script =
      (some (machine.run setting script).1, (machine.run setting script).2) := by
  induction script generalizing machine with
  | done result => rfl
  | perform effect next ih => exact ih _
  | observe next ih => exact ih _ _
  | pause ms next ih =>
      rw [runUnless_pause, passUnless_never]
      exact ih _
  | request message next ih =>
      rw [runUnless_request, runUnless_pause, passUnless_never]
      exact ih _ _
  | start job next ih => exact ih _ _

end Machine

end LivePage
