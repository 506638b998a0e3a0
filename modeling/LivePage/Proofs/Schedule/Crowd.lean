import LivePage.Proofs.Run.Conduct
import LivePage.Proofs.Schedule.Tidy

/-!
# Crowds

Any number of runs on one page at once, with all the tasks that they start, under
any schedule.  A run or a task has its turn and goes on until it waits or ends;
between two turns time may pass, the surroundings may have their turn, tasks may
be aborted, and somebody else may write to the page.  A crowd keeps the history of
all that was done, and by whom.  At every moment each run and each task has come
along a way of its own script, and the page is what the writes of the history
make of the first one.
-/

namespace LivePage

/-- A run over a list of actions that somebody asks for. -/
structure Errand where
  depth : Nat := 0
  context : Context := {}
  actions : List Action

def Engine.runErrand (engine : Engine) (errand : Errand) : Script Run :=
  engine.runList errand.depth errand.context errand.actions

/-- Where the run of an errand stands. -/
inductive ThreadState where
  | waiting (deadline : Nat) (script : Script Run)
  | ended (run : Run)

/-- Where a run stands after its turn. -/
def ThreadState.afterTurn (clock : Nat) : Progress Run → ThreadState
  | .ended run => .ended run
  | .waits ms next => .waiting (clock + ms) next

/-- The run of an errand. -/
structure Thread where
  errand : Errand
  state : ThreadState

/-- Who does something: a run or a task, named by its place. -/
inductive Actor where
  | thread (index : Nat)
  | task (task : TaskId)
deriving DecidableEq

/-- Something that happened on a page. -/
inductive Deed where
  | acted (actor : Actor) (act : Act)
  /-- Somebody else wrote to the page. -/
  | wrote (ops : List StoreOp)

/-- One move of a schedule. -/
inductive Move where
  /-- A new run begins. -/
  | enter (errand : Errand)
  /-- A run goes on, if the moment that it waits for has come. -/
  | goOn (thread : Nat)
  /-- A task goes on, if it is ready. -/
  | turn (task : TaskId)
  /-- Some milliseconds pass. -/
  | tick (ms : Nat)
  /-- The surroundings have their turn. -/
  | rest
  | abort (task : TaskId)
  /-- Somebody else writes to the page. -/
  | write (ops : List StoreOp)

/-- A move aborts no task but those of a list. -/
def Move.AbortsOnly (tasks : List TaskId) : Move → Prop
  | .abort task => task ∈ tasks
  | _ => True

/-- Runs and tasks on one page. -/
structure Crowd (σ : Type) where
  machine : Machine σ
  threads : List Thread := []
  /-- All that happened, in order. -/
  history : List Deed := []

namespace Deed

def act? : Deed → Option (Actor × Act)
  | acted actor act => some (actor, act)
  | wrote _ => none

/-- What somebody did. -/
def actOf? (actor : Actor) : Deed → Option Act
  | acted other act => if other = actor then some act else none
  | wrote _ => none

def started? : Deed → Option (Job × TaskId)
  | acted _ act => act.started?
  | wrote _ => none

/-- What a deed writes to a page with some listeners. -/
def writes (listeners : Listeners Listener) : Deed → List StoreOp
  | acted _ act => act.writes listeners
  | wrote ops => ops

end Deed

/-- The machine without the place of a task in its queue. -/
def Machine.pop (machine : Machine σ) (task : TaskId) : Machine σ :=
  { machine with queue := machine.queue.erase task }

namespace Crowd

variable {σ : Type}

/-- Nobody is there yet. -/
def fresh (world : World σ) : Crowd σ where
  machine := { world }

/-- What an actor did, in order. -/
def actsOf (crowd : Crowd σ) (actor : Actor) : List Act :=
  crowd.history.filterMap (Deed.actOf? actor)

/-- All that runs and tasks did, in order. -/
def acts (crowd : Crowd σ) : List (Actor × Act) :=
  crowd.history.filterMap Deed.act?

/-- The crowd behind a turn of an actor. -/
def afterTurn (crowd : Crowd σ) (actor : Actor) (acts : List Act) (machine : Machine σ)
    (threads : List Thread) : Crowd σ where
  machine := machine
  threads := threads
  history := crowd.history ++ acts.map (.acted actor)

/-- The crowd behind one move. -/
def step (setting : Setting σ) (crowd : Crowd σ) : Move → Crowd σ
  | .enter errand =>
      let script := setting.engine.runErrand errand
      let turn := Machine.advance setting script crowd.machine
      crowd.afterTurn (.thread crowd.threads.length) (Machine.acts setting script crowd.machine)
        turn.2 (crowd.threads ++ [{ errand, state := .afterTurn crowd.machine.clock turn.1 }])
  | .goOn i =>
      match (crowd.threads[i]?).map Thread.state with
      | some (.waiting deadline script) =>
          if deadline ≤ crowd.machine.clock then
            let turn := Machine.advance setting script crowd.machine
            crowd.afterTurn (.thread i) (Machine.acts setting script crowd.machine) turn.2
              (crowd.threads.modify i fun thread =>
                { thread with state := .afterTurn crowd.machine.clock turn.1 })
          else crowd
      | _ => crowd
  | .turn task =>
      let machine := crowd.machine.pop task
      match (machine.tasks[task]?).map Task.state with
      | some (.ready script) =>
          crowd.afterTurn (.task task) (Machine.acts setting script machine)
            (machine.runTask setting task) crowd.threads
      | _ => { crowd with machine }
  | .tick ms => { crowd with machine := crowd.machine.setClock (crowd.machine.clock + ms) }
  | .rest => { crowd with machine := crowd.machine.rest setting }
  | .abort task => { crowd with machine := crowd.machine.abort task }
  | .write ops =>
      { crowd with
        machine := { crowd.machine with
          world := { crowd.machine.world with page := crowd.machine.world.page.applyAll ops } }
        history := crowd.history ++ [.wrote ops] }

/-- The crowd behind some moves. -/
def play (setting : Setting σ) (crowd : Crowd σ) (moves : List Move) : Crowd σ :=
  moves.foldl (step setting) crowd

end Crowd

/-- Surroundings that count what they are asked for, and answer every request after
five milliseconds. -/
def Setting.counting : Setting Nat where
  engine := {}
  host := {
    answer := fun _ _ count => ({ delay := 5, reply := .ok default }, count + 1)
    call := fun _ count => count + 1
    notify := fun _ count => count + 1 }

/-- How the state of a task may change while it has no turn. -/
inductive TaskState.Calms : TaskState → TaskState → Prop where
  | same {state : TaskState} : Calms state state
  | woken {deadline : Nat} {script : Script Outcome} :
      Calms (.waiting deadline script) (.ready script)
  | aborted {state : TaskState} : state.isOver = false → Calms state .aborted

theorem TaskState.Calms.eq_of_isOver {state after : TaskState} (hcalms : state.Calms after)
    (hover : state.isOver = true) : after = state := by
  cases hcalms with
  | same => rfl
  | woken => cases hover
  | aborted hnot => exact absurd (hnot.symm.trans hover) Bool.false_ne_true

/-- How a task may change while it has no turn. -/
def Task.Calms (task after : Task) : Prop :=
  after.job = task.job ∧ task.state.Calms after.state

theorem Task.Calms.refl (task : Task) : task.Calms task :=
  ⟨rfl, .same⟩

theorem Machine.calms_wakeTask (clock : Nat) (task : Task) :
    task.Calms (wakeTask clock task) := by
  rcases wakeTask_cases clock task with ⟨hsame, -⟩ | ⟨deadline, script, hstate, -, hwoken⟩
  · rw [hsame]
    exact .refl task
  · rw [hwoken, Task.Calms, hstate]
    exact ⟨rfl, .woken⟩

theorem forall₂_modify {r : Task → Task → Prop} (hrefl : ∀ task, r task task) (f : Task → Task)
    {tasks : List Task} {i : Nat} (hi : ∀ task, tasks[i]? = some task → r task (f task)) :
    List.Forall₂ r tasks (tasks.modify i f) := by
  have hsame (tasks : List Task) : List.Forall₂ r tasks tasks :=
    List.forall₂_same.2 fun task _ => hrefl task
  induction tasks generalizing i with
  | nil => simp
  | cons task rest ih =>
      cases i with
      | zero => exact .cons (hi task rfl) (hsame rest)
      | succ i => exact .cons (hrefl task) (ih fun other hother => hi other hother)

theorem Machine.calms_abort (machine : Machine σ) (task : TaskId) :
    List.Forall₂ Task.Calms machine.tasks (machine.abort task).tasks := by
  rw [abort]
  split
  · exact List.forall₂_same.2 fun task _ => .refl task
  · next hover =>
      apply forall₂_modify Task.Calms.refl
      intro own hown
      refine ⟨rfl, .aborted ?_⟩
      have hnot : ¬ ∃ own, machine.tasks[task]? = some own ∧ own.state.isOver = true :=
        fun h => hover (isOver_iff.2 h)
      simpa [hown] using hnot

namespace Crowd

variable {σ : Type} {setting : Setting σ}

/-- What a move can do to a crowd. -/
inductive Change (setting : Setting σ) (crowd : Crowd σ) : Move → Crowd σ → Prop where
  /-- Nobody does anything. -/
  | calm {move : Move} {machine : Machine σ} :
      machine.world.page = crowd.machine.world.page →
      machine.world.listeners = crowd.machine.world.listeners →
      List.Forall₂ Task.Calms crowd.machine.tasks machine.tasks →
      Change setting crowd move { crowd with machine }
  | written (ops : List StoreOp) :
      Change setting crowd (.write ops) (crowd.step setting (.write ops))
  | entered (errand : Errand) :
      Change setting crowd (.enter errand) (crowd.step setting (.enter errand))
  | wentOn {i deadline : Nat} {script : Script Run} :
      (crowd.threads[i]?).map Thread.state = some (.waiting deadline script) →
      Change setting crowd (.goOn i)
        (crowd.afterTurn (.thread i) (Machine.acts setting script crowd.machine)
          (Machine.advance setting script crowd.machine).2
          (crowd.threads.modify i fun thread => { thread with
            state := .afterTurn crowd.machine.clock
              (Machine.advance setting script crowd.machine).1 }))
  | turned {task : TaskId} {script : Script Outcome} :
      ((crowd.machine.pop task).tasks[task]?).map Task.state = some (.ready script) →
      Change setting crowd (.turn task)
        (crowd.afterTurn (.task task) (Machine.acts setting script (crowd.machine.pop task))
          ((crowd.machine.pop task).runTask setting task) crowd.threads)

theorem Change.refl (crowd : Crowd σ) (move : Move) : Change setting crowd move crowd :=
  .calm rfl rfl (List.forall₂_same.2 fun task _ => .refl task)

/-- What a move does is one of the changes above. -/
theorem change_step (setting : Setting σ) (crowd : Crowd σ) (move : Move) :
    Change setting crowd move (crowd.step setting move) := by
  cases move with
  | enter errand => exact .entered errand
  | goOn i =>
      rw [step]
      split
      · next deadline script hstate =>
          split
          · exact .wentOn hstate
          · exact .refl crowd _
      · exact .refl crowd _
  | turn task =>
      rw [step]
      split
      · next script hready => exact .turned hready
      · exact .calm rfl rfl (List.forall₂_same.2 fun task _ => .refl task)
  | tick ms =>
      refine .calm rfl rfl ?_
      exact List.forall₂_map_right_iff.2
        (List.forall₂_same.2 fun task _ => Machine.calms_wakeTask _ task)
  | rest => exact .calm rfl rfl (List.forall₂_same.2 fun task _ => .refl task)
  | abort task =>
      have hworld : (crowd.machine.abort task).world = crowd.machine.world := by
        rw [Machine.abort]
        split <;> rfl
      exact .calm (by rw [hworld]) (by rw [hworld]) (crowd.machine.calms_abort task)
  | write ops => exact .written ops

theorem mem_history_of_mem_actsOf {crowd : Crowd σ} {actor : Actor} {act : Act}
    (hact : act ∈ crowd.actsOf actor) :
    .acted actor act ∈ crowd.history := by
  obtain ⟨deed, hdeed, hof⟩ := List.mem_filterMap.1 hact
  cases deed with
  | acted other told =>
      rw [Deed.actOf?] at hof
      split at hof
      · next heq =>
          rw [← heq, ← Option.some.inj hof]
          exact hdeed
      · cases hof
  | wrote ops => cases hof

theorem mem_history_of_mem_acts {crowd : Crowd σ} {actor : Actor} {act : Act}
    (hact : (actor, act) ∈ crowd.acts) : .acted actor act ∈ crowd.history := by
  obtain ⟨deed, hdeed, hof⟩ := List.mem_filterMap.1 hact
  cases deed with
  | acted other told =>
      obtain ⟨rfl, rfl⟩ := Prod.mk.inj (Option.some.inj hof)
      exact hdeed
  | wrote ops => cases hof

end Crowd

end LivePage
