import LivePage.Proofs.Schedule.Turn
import LivePage.Schedule.Interrupt

/-!
# Maps of the surroundings

A map of the states of the surroundings that answers, calls and turns respect can
be applied before or after anything that a machine does.  What the map forgets has
then no influence on runs: neither on their results nor on their tasks, the page or
the clock.
-/

namespace LivePage

variable {σ : Type}

/-- A map of the states of the surroundings that all their operations respect. -/
structure Host.Respects (host : Host σ) (f : σ → σ) : Prop where
  answer : ∀ page request state, host.answer page request (f state) =
    ((host.answer page request state).1, f (host.answer page request state).2)
  call : ∀ call state, host.call call (f state) = f (host.call call state)
  notify : ∀ listener state, host.notify listener (f state) = f (host.notify listener state)
  rest : ∀ state, host.rest (f state) = f (host.rest state)

namespace Machine

/-- The machine in mapped surroundings. -/
def mapHost (f : σ → σ) (machine : Machine σ) : Machine σ :=
  { machine with world := { machine.world with host := f machine.world.host } }

variable {setting : Setting σ} {f : σ → σ} {stop : σ → Bool}

theorem perform_mapHost (hhost : setting.host.Respects f) (machine : Machine σ)
    (effect : Effect) :
    (machine.mapHost f).perform setting effect = (machine.perform setting effect).mapHost f := by
  cases effect with
  | store op => rfl
  | refresh component =>
      simp only [perform, World.perform, mapHost]
      cases machine.world.listeners.listener? component with
      | none => rfl
      | some listener => simp only [World.notify, hhost.notify]
  | call call => simp only [perform, World.perform, mapHost, hhost.call]

theorem answer_mapHost (hhost : setting.host.Respects f) (machine : Machine σ)
    (request : HttpRequest) :
    (machine.mapHost f).answer setting request =
      ((machine.answer setting request).1, (machine.answer setting request).2.mapHost f) := by
  simp only [answer, mapHost, hhost.answer]

theorem rest_mapHost (hhost : setting.host.Respects f) (machine : Machine σ) :
    (machine.mapHost f).rest setting = (machine.rest setting).mapHost f := by
  simp only [rest, mapHost, hhost.rest]

/-- A script comes equally far in mapped surroundings. -/
theorem advance_mapHost (hhost : setting.host.Respects f) (script : Script α)
    (machine : Machine σ) :
    advance setting script (machine.mapHost f) =
      ((advance setting script machine).1, (advance setting script machine).2.mapHost f) := by
  induction script generalizing machine with
  | done result => rfl
  | perform effect next ih =>
      rw [advance, perform_mapHost hhost, ih]
      rfl
  | observe next ih => exact ih _ machine
  | pause ms next ih =>
      rw [advance, advance]
      split
      · exact ih machine
      · rfl
  | request message next ih =>
      rw [advance_request, advance_request, answer_mapHost hhost]
      split
      · exact ih _ _
      · rfl
  | start job next ih => exact ih _ (machine.start setting job).2

theorem runTask_mapHost (hhost : setting.host.Respects f) (machine : Machine σ)
    (task : TaskId) :
    (machine.mapHost f).runTask setting task = (machine.runTask setting task).mapHost f := by
  have htasks : (machine.mapHost f).tasks = machine.tasks := rfl
  rw [runTask, runTask, htasks]
  split
  · next script hready =>
      rw [advance_mapHost hhost]
      rcases advance setting script machine with ⟨outcome | ⟨ms, next⟩, after⟩
      · exact rest_mapHost hhost (after.setState task (.finished outcome))
      · exact rest_mapHost hhost (after.setState task (.waiting (after.clock + ms) next))
  · rfl

theorem settleWithin_mapHost (hhost : setting.host.Respects f) (fuel : Nat)
    (machine : Machine σ) :
    settleWithin setting fuel (machine.mapHost f) =
      (settleWithin setting fuel machine).mapHost f := by
  induction fuel generalizing machine with
  | zero => rfl
  | succ fuel ih =>
      have hqueue : (machine.mapHost f).queue = machine.queue := rfl
      rw [settleWithin, settleWithin, hqueue]
      cases machine.queue with
      | nil => rfl
      | cons task queue =>
          rw [← ih, ← runTask_mapHost hhost]
          rfl

theorem settle_mapHost (hhost : setting.host.Respects f) (machine : Machine σ) :
    (machine.mapHost f).settle setting = (machine.settle setting).mapHost f :=
  settleWithin_mapHost hhost _ machine

theorem passUnlessWithin_mapHost (hhost : setting.host.Respects f)
    (hstop : ∀ state, stop (f state) = stop state) (deadline fuel : Nat) (machine : Machine σ) :
    passUnlessWithin setting stop deadline fuel (machine.mapHost f) =
      ((passUnlessWithin setting stop deadline fuel machine).1,
        (passUnlessWithin setting stop deadline fuel machine).2.mapHost f) := by
  induction fuel generalizing machine with
  | zero => rfl
  | succ fuel ih =>
      have hsettled := settle_mapHost hhost machine
      have htest : stop ((machine.mapHost f).settle setting).world.host =
          stop (machine.settle setting).world.host := by
        rw [hsettled]
        exact hstop _
      rw [passUnlessWithin, passUnlessWithin, htest, hsettled]
      split
      · rfl
      · have hnext : ((machine.settle setting).mapHost f).nextDeadline? =
            (machine.settle setting).nextDeadline? := rfl
        rw [hnext]
        split
        · next next hdue => exact ih ((machine.settle setting).setClock next)
        · rfl

theorem passUnless_mapHost (hhost : setting.host.Respects f)
    (hstop : ∀ state, stop (f state) = stop state) (machine : Machine σ) (ms : Nat) :
    (machine.mapHost f).passUnless setting stop ms =
      ((machine.passUnless setting stop ms).1,
        (machine.passUnless setting stop ms).2.mapHost f) := by
  rw [passUnless, passUnless]
  split
  · rfl
  · rw [rest_mapHost hhost]
    exact passUnlessWithin_mapHost hhost hstop _ _ _

/-- A run has the same result in mapped surroundings, and leaves the same machine in
mapped surroundings. -/
theorem runUnless_mapHost (hhost : setting.host.Respects f)
    (hstop : ∀ state, stop (f state) = stop state) (script : Script α) (machine : Machine σ) :
    (machine.mapHost f).runUnless setting stop script =
      ((machine.runUnless setting stop script).1,
        (machine.runUnless setting stop script).2.mapHost f) := by
  induction script generalizing machine with
  | done result => rfl
  | perform effect next ih =>
      rw [runUnless, perform_mapHost hhost, ih]
      rfl
  | observe next ih => exact ih _ machine
  | pause ms next ih =>
      rw [runUnless, runUnless, passUnless_mapHost hhost hstop]
      rcases machine.passUnless setting stop ms with ⟨_ | _, after⟩
      · exact ih after
      · rfl
  | request message next ih =>
      simp only [runUnless, answer_mapHost hhost, passUnless_mapHost hhost hstop]
      rcases (machine.answer setting message).2.passUnless setting stop
        (machine.answer setting message).1.delay with ⟨_ | _, after⟩
      · exact ih _ after
      · rfl
  | start job next ih => exact ih _ (machine.start setting job).2

end Machine

end LivePage
