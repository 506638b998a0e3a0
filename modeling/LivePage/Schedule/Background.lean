import LivePage.Schedule.Machine

/-!
# Background actions

The tasks of detached actions that a program has collected over many runs, so
that it can wait for them before it ends, or abort them.
-/

namespace LivePage

/-- Tasks in the order in which they were collected. -/
structure Background where
  tasks : List TaskId := []
deriving DecidableEq, Repr, Inhabited

namespace Background

variable {σ : Type}

/-- The tasks that are collected when those of a run are added; those collected before and
over by now are dropped. -/
def track (background : Background) (machine : Machine σ) (run : Run) : Background where
  tasks := background.tasks.filter (!machine.isOver ·) ++ run.detached

/-- Takes over the tasks of a run, which keeps none of them. -/
def takeOver (background : Background) (machine : Machine σ) (run : Run) : Background × Run :=
  (background.track machine run, { run with detached := [] })

/-- How many tasks are collected. -/
def size (background : Background) : Nat :=
  background.tasks.length

/-- Waits for tasks one after the other and answers how they ended. -/
def awaitAll (setting : Setting σ) : List TaskId → Machine σ → List Outcome × Machine σ
  | [], machine => ([], machine)
  | task :: rest, machine =>
      let machine := machine.await setting task
      let (outcomes, after) := awaitAll setting rest machine
      ((machine.outcome? task).toList ++ outcomes, after)

/-- Waits for all tasks; none is left. -/
def joinAll (background : Background) (setting : Setting σ) (machine : Machine σ) :
    List Outcome × Background × Machine σ :=
  let (outcomes, machine) := awaitAll setting background.tasks machine
  (outcomes, {}, machine)

/-- Aborts all tasks; none is left. -/
def abortAll (background : Background) (machine : Machine σ) : Background × Machine σ :=
  ({}, background.tasks.foldl Machine.abort machine)

end Background

end LivePage
