import LivePage.Schedule.Machine

/-!
# Interrupted runs

A script in the foreground that is given up as soon as it waits while the
surroundings are in a state that satisfies a test.  With a test that never holds
this is an ordinary run.
-/

namespace LivePage.Machine

variable {σ : Type}

/-- Lets time pass up to a moment, unless the test holds once no task is ready;
answers whether it did. -/
def passUnlessWithin (setting : Setting σ) (stop : σ → Bool) (deadline : Nat) :
    Nat → Machine σ → Bool × Machine σ
  | 0, machine => (false, machine.setClock deadline)
  | fuel + 1, machine =>
      let machine := machine.settle setting
      if stop machine.world.host then (true, machine)
      else
        match machine.nextDeadline?.filter (· < deadline) with
        | some next => passUnlessWithin setting stop deadline fuel (machine.setClock next)
        | none => (false, machine.setClock deadline)

/-- Lets some milliseconds pass, unless the test holds. -/
def passUnless (setting : Setting σ) (stop : σ → Bool) (machine : Machine σ) (ms : Nat) :
    Bool × Machine σ :=
  if ms = 0 then (false, machine)
  else passUnlessWithin setting stop (machine.clock + ms) (machine.work + 1) (machine.rest setting)

/-- Runs a script in the foreground to its end, or gives it up; then it has no
result. -/
def runUnless (setting : Setting σ) (stop : σ → Bool) :
    Script α → Machine σ → Option α × Machine σ
  | .done result, machine => (some result, machine)
  | .perform effect next, machine => runUnless setting stop next (machine.perform setting effect)
  | .observe next, machine => runUnless setting stop (next machine.world.page) machine
  | .pause ms next, machine =>
      match machine.passUnless setting stop ms with
      | (true, machine) => (none, machine)
      | (false, machine) => runUnless setting stop next machine
  | .request request next, machine =>
      let (answer, machine) := machine.answer setting request
      match machine.passUnless setting stop answer.delay with
      | (true, machine) => (none, machine)
      | (false, machine) => runUnless setting stop (next answer.reply) machine
  | .start job next, machine =>
      let (task, machine) := machine.start setting job
      runUnless setting stop (next task) machine

/-- Lets time pass for as long as tasks go on, with at most `fuel` stops. -/
def idleWithin (setting : Setting σ) (stop : σ → Bool) : Nat → Machine σ → Machine σ
  | 0, machine => machine
  | fuel + 1, machine =>
      let machine := machine.settle setting
      if stop machine.world.host then machine
      else
        match machine.nextDeadline? with
        | some next => idleWithin setting stop fuel (machine.setClock next)
        | none => machine

/-- Lets time pass until the test holds or no task is left. -/
def idleUntil (setting : Setting σ) (stop : σ → Bool) (machine : Machine σ) : Machine σ :=
  idleWithin setting stop (machine.work + 1) (machine.rest setting)

end LivePage.Machine
