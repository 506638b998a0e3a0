import LivePage.Proofs.Run.Pruning
import LivePage.Proofs.Schedule.Alignment
import LivePage.Proofs.Schedule.Interrupt

/-!
# Twin machines

A machine beside one that runs pruned trees under a larger limit for nesting.
They go along step by step, and nothing but the tasks that stand too deep tells
them apart: those come to their ends in their first turns, at once and without a
trace.
-/

namespace LivePage

/-- The setting with another limit for nesting. -/
def Setting.withLimit (setting : Setting σ) (limit : Nat) : Setting σ :=
  { setting with engine := setting.engine.withLimit limit }

namespace Machine

/-- Two machines that look alike but for the tasks that stand too deep. -/
structure Twins (setting : Setting σ) (machine twin : Machine σ) : Prop where
  world : twin.world = machine.world
  clock : twin.clock = machine.clock
  aligned : Aligned setting.engine.maxDepth machine.tasks twin.tasks
  known : ∀ i ∈ machine.queue, i < (depths machine.tasks).length
  queue : twin.queue = seen setting.engine.maxDepth (depths machine.tasks) machine.queue

/-- The surroundings just had their turn. -/
def Rested (setting : Setting σ) (machine : Machine σ) : Prop :=
  setting.host.rest machine.world.host = machine.world.host

/-- A task that is not too deep, and its name in the other machine. -/
def Paired (setting : Setting σ) (machine : Machine σ) (i j : TaskId) : Prop :=
  reaches setting.engine.maxDepth (depths machine.tasks) i = true ∧
    place setting.engine.maxDepth (depths machine.tasks) i = j

section

variable {σ : Type} {setting : Setting σ} {larger : Nat} {machine twin : Machine σ}

theorem rested_rest (setting : Setting σ) (machine : Machine σ) :
    Rested setting (machine.rest setting) :=
  setting.host.rest_rest machine.world.host

theorem Rested.rest_eq (hrested : Rested setting machine) : machine.rest setting = machine := by
  rw [rest, hrested]

theorem Rested.runTask (hrested : Rested setting machine) (i : TaskId) :
    Rested setting (machine.runTask setting i) := by
  by_cases hready : ∃ script, (machine.tasks[i]?).map Task.state = some (.ready script)
  · obtain ⟨script, hready⟩ := hready
    rw [runTask_of_ready setting machine hready]
    exact rested_rest setting _
  · rw [runTask_of_not_ready setting hready]
    exact hrested

theorem Rested.settles {after : Machine σ} (hrested : Rested setting machine)
    (hsettles : Settles setting machine after) : Rested setting after := by
  induction hsettles with
  | quiet => exact hrested
  | @turn machine after task queue _ _ ih =>
      have hpopped : Rested setting { machine with queue } := hrested
      exact ih (hpopped.runTask task)

theorem depths_setState (machine : Machine σ) (i : TaskId) (state : TaskState) :
    depths (machine.setState i state).tasks = depths machine.tasks := by
  have hdepths (tasks : List Task) : depths tasks = (tasks.map Task.job).map Job.depth := by
    rw [depths, List.map_map]
    rfl
  rw [hdepths, hdepths, jobs_setState]

theorem Twins.withWorld (htwins : Twins setting machine twin) (world : World σ) :
    Twins setting { machine with world } { twin with world } :=
  ⟨rfl, htwins.clock, htwins.aligned, htwins.known, htwins.queue⟩

theorem Twins.perform (htwins : Twins setting machine twin) (larger : Nat) (effect : Effect) :
    Twins setting (machine.perform setting effect)
      (twin.perform (setting.withLimit larger) effect) := by
  have hworld := htwins.withWorld (machine.world.perform setting.host effect)
  rw [Machine.perform, Machine.perform, htwins.world]
  exact hworld

theorem Twins.rest (htwins : Twins setting machine twin) (larger : Nat) :
    Twins setting (machine.rest setting) (twin.rest (setting.withLimit larger)) := by
  have hworld := htwins.withWorld (machine.rest setting).world
  rw [Machine.rest, Machine.rest, htwins.world]
  exact hworld

theorem Twins.answer (htwins : Twins setting machine twin) (larger : Nat)
    (message : HttpRequest) :
    (twin.answer (setting.withLimit larger) message).1 = (machine.answer setting message).1 ∧
      Twins setting (machine.answer setting message).2
        (twin.answer (setting.withLimit larger) message).2 := by
  have hworld := htwins.withWorld (machine.answer setting message).2.world
  rw [Machine.answer, Machine.answer, htwins.world]
  exact ⟨rfl, hworld⟩

theorem Twins.setClock (htwins : Twins setting machine twin) (clock : Nat) :
    Twins setting (machine.setClock clock) (twin.setClock clock) where
  world := htwins.world
  clock := rfl
  aligned := htwins.aligned.map_wakeTask clock
  known := by
    intro i hi
    rw [Machine.setClock, depths_map_wakeTask]
    rcases List.mem_append.1 hi with hi | hi
    · exact htwins.known i hi
    · have hrange := (List.mem_filter.1 hi).1
      rw [depths, List.length_map]
      exact List.mem_range.1 hrange
  queue := by
    rw [Machine.setClock, Machine.setClock, depths_map_wakeTask, seen_append,
      htwins.aligned.dueTasks_eq, htwins.queue]

theorem Twins.setState (htwins : Twins setting machine twin) {i : TaskId} {task : Task}
    (htask : machine.tasks[i]? = some task) (hdepth : task.job.depth ≤ setting.engine.maxDepth)
    {state twinState : TaskState} (hstate : state.Twins setting.engine.maxDepth twinState) :
    Twins setting (machine.setState i state)
      (twin.setState (place setting.engine.maxDepth (depths machine.tasks) i) twinState) where
  world := htwins.world
  clock := htwins.clock
  aligned := htwins.aligned.modify_twin htask hdepth hstate
  known := by
    rw [depths_setState]
    exact htwins.known
  queue := by
    rw [depths_setState]
    exact htwins.queue

theorem Twins.setState_tooDeep (htwins : Twins setting machine twin) {i : TaskId} {task : Task}
    (htask : machine.tasks[i]? = some task) (hdepth : setting.engine.maxDepth < task.job.depth)
    {state : TaskState} (hidle : state.IsIdle) : Twins setting (machine.setState i state) twin where
  world := htwins.world
  clock := htwins.clock
  aligned := htwins.aligned.modify_tooDeep htask hdepth hidle
  known := by
    rw [depths_setState]
    exact htwins.known
  queue := by
    rw [depths_setState]
    exact htwins.queue

/-- The next task of the queue is the next one in the other machine as well, unless
it stands too deep. -/
theorem Twins.exists_next (htwins : Twins setting machine twin) {i : TaskId} {queue : List TaskId}
    (hqueue : machine.queue = i :: queue) :
    ∃ task, machine.tasks[i]? = some task ∧
      twin.queue = if task.job.depth ≤ setting.engine.maxDepth then
          place setting.engine.maxDepth (depths machine.tasks) i ::
            seen setting.engine.maxDepth (depths machine.tasks) queue
        else seen setting.engine.maxDepth (depths machine.tasks) queue := by
  have hknown := htwins.known i (hqueue ▸ List.mem_cons_self)
  rw [depths, List.length_map] at hknown
  have htask := List.getElem?_eq_getElem hknown
  refine ⟨machine.tasks[i], htask, ?_⟩
  rw [htwins.queue, hqueue, seen, List.filter_cons, reaches, depths, List.getElem?_map, htask,
    Option.map_some, Option.any_some]
  by_cases hdepth : machine.tasks[i].job.depth ≤ setting.engine.maxDepth
  · rw [if_pos (decide_eq_true hdepth), if_pos hdepth, List.map_cons]
    rfl
  · rw [if_neg (by simpa using hdepth), if_neg hdepth]
    rfl

theorem Twins.pop (htwins : Twins setting machine twin) {i : TaskId} {queue : List TaskId}
    (hqueue : machine.queue = i :: queue) :
    Twins setting { machine with queue }
      { twin with queue := seen setting.engine.maxDepth (depths machine.tasks) queue } where
  world := htwins.world
  clock := htwins.clock
  aligned := htwins.aligned
  known := fun j hj => htwins.known j (hqueue ▸ List.mem_cons_of_mem i hj)
  queue := rfl

theorem depths_start (machine : Machine σ) (job : Job) :
    depths (machine.start setting job).2.tasks = depths machine.tasks ++ [job.depth] := by
  simp [depths, start]

theorem known_start (htwins : Twins setting machine twin) (job : Job) :
    ∀ i ∈ (machine.start setting job).2.queue,
      i < (depths (machine.start setting job).2.tasks).length := by
  intro i hi
  rw [depths_start, List.length_append]
  rcases List.mem_append.1 hi with hi | hi
  · exact Nat.lt_of_lt_of_le (htwins.known i hi) (Nat.le_add_right ..)
  · rw [List.mem_singleton.1 hi, depths, List.length_map]
    exact Nat.lt_succ_self _

/-- The queue behind the start of a job. -/
theorem seen_start (htwins : Twins setting machine twin) (job : Job) :
    seen setting.engine.maxDepth (depths (machine.start setting job).2.tasks)
        (machine.start setting job).2.queue =
      twin.queue ++ if job.depth ≤ setting.engine.maxDepth then [twin.tasks.length] else [] := by
  have hlength : (depths machine.tasks).length = machine.tasks.length := List.length_map ..
  have hplace := htwins.aligned.place_length [job.depth]
  have hreaches :
      reaches setting.engine.maxDepth (depths machine.tasks ++ [job.depth]) machine.tasks.length =
        decide (job.depth ≤ setting.engine.maxDepth) := by
    rw [reaches, ← hlength, List.getElem?_concat_length, Option.any_some]
  have hqueue : (machine.start setting job).2.queue = machine.queue ++ [machine.tasks.length] := rfl
  rw [depths_start, hqueue, seen_append, seen_depths_append _ htwins.known, ← htwins.queue]
  congr 1
  rw [seen, List.filter_singleton, hreaches]
  split <;> simp [*]

theorem Twins.start (htwins : Twins setting machine twin)
    (hlarger : setting.engine.maxDepth ≤ larger) {job : Job}
    (hdepth : job.depth ≤ setting.engine.maxDepth) :
    Twins setting (machine.start setting job).2
      (twin.start (setting.withLimit larger) (job.prune setting.engine.maxDepth)).2 where
  world := htwins.world
  clock := htwins.clock
  aligned := by
    refine htwins.aligned.append (.twin hdepth ?_ .nil)
    exact .ready (setting.engine.prunes_runJob hlarger hdepth [])
  known := known_start htwins job
  queue := by
    rw [seen_start htwins, if_pos hdepth]
    rfl

/-- A task that stands too deep is started in one machine only, and there it has
nothing to do. -/
theorem Twins.start_tooDeep (htwins : Twins setting machine twin) {job : Job}
    (hdepth : setting.engine.maxDepth < job.depth) :
    Twins setting (machine.start setting job).2 twin where
  world := htwins.world
  clock := htwins.clock
  aligned := by
    have hidle : (setting.newTask job).state.IsIdle :=
      ⟨_, setting.engine.runAction_of_tooDeep job.context job.action hdepth⟩
    have happend := htwins.aligned.append (.tooDeep hdepth hidle .nil)
    rwa [List.append_nil] at happend
  known := known_start htwins job
  queue := by
    rw [seen_start htwins, if_neg (Nat.not_le.2 hdepth), List.append_nil]

/-- Two scripts that go alike stop at the same place. -/
theorem Twins.advance {pairs : List (TaskId × TaskId)} {script other : Script Outcome}
    (hlarger : setting.engine.maxDepth ≤ larger)
    (hprunes : Script.Prunes setting.engine.maxDepth (fun _ => Eq) pairs script other)
    (htwins : Twins setting machine twin) :
    Twins setting (advance setting script machine).2
        (advance (setting.withLimit larger) other twin).2 ∧
      ∀ clock, (TaskState.afterTurn clock (advance setting script machine).1).Twins
        setting.engine.maxDepth
        (.afterTurn clock (advance (setting.withLimit larger) other twin).1) := by
  induction hprunes generalizing machine twin with
  | done hresult =>
      obtain rfl := hresult
      exact ⟨htwins, fun _ => .finished⟩
  | @perform pairs effect next other _ ih => exact ih (htwins.perform larger effect)
  | observe _ ih =>
      rw [Machine.advance, Machine.advance, htwins.world]
      exact ih _ htwins
  | @pause pairs ms next other hprunes ih =>
      rw [Machine.advance, Machine.advance]
      split
      · exact ih htwins
      · exact ⟨htwins, fun _ => .waiting hprunes⟩
  | @request pairs message next other hprunes ih =>
      obtain ⟨hanswer, hsent⟩ := htwins.answer larger message
      rw [advance_request, advance_request, hanswer]
      split
      · exact ih _ hsent
      · exact ⟨hsent, fun _ => .waiting (hprunes _)⟩
  | start hdepth _ ih => exact ih _ _ (htwins.start hlarger hdepth)
  | tooDeep hdepth _ ih => exact ih _ (htwins.start_tooDeep hdepth)

/-- A task and its twin have their turns. -/
theorem Twins.runTask (htwins : Twins setting machine twin)
    (hlarger : setting.engine.maxDepth ≤ larger) {i : TaskId} {task : Task}
    (htask : machine.tasks[i]? = some task) (hdepth : task.job.depth ≤ setting.engine.maxDepth) :
    Twins setting (machine.runTask setting i)
      (twin.runTask (setting.withLimit larger)
        (place setting.engine.maxDepth (depths machine.tasks) i)) := by
  obtain ⟨other, hother, hstate⟩ := htwins.aligned.exists_twin htask hdepth
  have hown : (machine.tasks[i]?).map Task.state = some task.state := by rw [htask]; rfl
  have htwin : (twin.tasks[place setting.engine.maxDepth (depths machine.tasks) i]?).map
      Task.state = some other.state := by rw [hother]; rfl
  generalize task.state = state at hown hstate
  generalize other.state = twinState at htwin hstate
  cases hstate with
  | @ready pairs script twinScript hprunes =>
      obtain ⟨hadvanced, hafter⟩ := htwins.advance hlarger hprunes
      obtain ⟨acts, hextends, -⟩ := advance_spec setting script machine
      have hlength := (List.getElem?_eq_some_iff.1 htask).1
      have hstill : (Machine.advance setting script machine).2.tasks[i]? = some task := by
        rw [hextends.tasks, List.getElem?_append_left hlength, htask]
      have hplace : place setting.engine.maxDepth
          (depths (Machine.advance setting script machine).2.tasks) i =
            place setting.engine.maxDepth (depths machine.tasks) i := by
        rw [hextends.tasks, depths, List.map_append, place_append (by rwa [List.length_map])]
        rfl
      have hset := fun clock => hadvanced.setState hstill hdepth (hafter clock)
      rw [runTask_of_ready _ _ hown, runTask_of_ready _ _ htwin, hadvanced.clock, ← hplace]
      exact (hset _).rest larger
  | waiting | finished =>
      rw [runTask_of_not_ready setting (by simp [hown]), runTask_of_not_ready _ (by simp [htwin])]
      exact htwins

/-- A task that stands too deep ends, and nobody notices. -/
theorem Twins.runTask_tooDeep (htwins : Twins setting machine twin)
    (hrested : Rested setting machine) {i : TaskId} {task : Task}
    (htask : machine.tasks[i]? = some task) (hdepth : setting.engine.maxDepth < task.job.depth) :
    Twins setting (machine.runTask setting i) twin := by
  have hidle := htwins.aligned.isIdle htask hdepth
  have hown : (machine.tasks[i]?).map Task.state = some task.state := by rw [htask]; rfl
  cases hstate : task.state with
  | ready script =>
      rw [hstate] at hown hidle
      obtain ⟨outcome, rfl⟩ := hidle
      have hended : (TaskState.finished outcome).IsIdle := trivial
      have hset : Rested setting (machine.setState i (.finished outcome)) := hrested
      have hturn : machine.runTask setting i = machine.setState i (.finished outcome) := by
        rw [runTask_of_ready setting machine hown]
        exact hset.rest_eq
      rw [hturn]
      exact htwins.setState_tooDeep htask hdepth hended
  | waiting | finished | aborted =>
      rw [runTask_of_not_ready setting (by simp [hown, hstate])]
      exact htwins

theorem depths_runTask (setting : Setting σ) (machine : Machine σ) (i : TaskId) :
    depths machine.tasks <+: depths (machine.runTask setting i).tasks := by
  by_cases hready : ∃ script, (machine.tasks[i]?).map Task.state = some (.ready script)
  · obtain ⟨script, hready⟩ := hready
    obtain ⟨acts, hextends, -⟩ := advance_spec setting script machine
    rw [runTask_of_ready setting machine hready, rest, depths_setState, hextends.tasks]
    exact ⟨_, (List.map_append ..).symm⟩
  · exact ⟨[], by rw [runTask_of_not_ready setting hready, List.append_nil]⟩

/-- The tasks settle in both machines. -/
theorem Twins.settles {after afterTwin : Machine σ} (hlarger : setting.engine.maxDepth ≤ larger)
    (hsettles : Settles setting machine after)
    (hother : Settles (setting.withLimit larger) twin afterTwin)
    (htwins : Twins setting machine twin) (hrested : Rested setting machine) :
    Twins setting after afterTwin := by
  -- the machine with all tasks leads; the other one stays where it is while a task
  -- that stands too deep has its turn
  induction hsettles generalizing twin with
  | @quiet machine hqueue =>
      have hnone : twin.queue = [] := by rw [htwins.queue, hqueue]; rfl
      cases hother with
      | quiet => exact htwins
      | turn hturn => cases hnone.symm.trans hturn
  | @turn machine after i queue hqueue _ ih =>
      obtain ⟨task, htask, hnext⟩ := htwins.exists_next hqueue
      have hpopped := htwins.pop hqueue
      have hpoppedRested : Rested setting { machine with queue } := hrested
      by_cases hdepth : task.job.depth ≤ setting.engine.maxDepth
      · rw [if_pos hdepth] at hnext
        cases hother with
        | quiet hnone => cases hnone.symm.trans hnext
        | @turn _ _ j others hturn hrest =>
            obtain ⟨rfl, rfl⟩ := List.cons.inj (hturn.symm.trans hnext)
            exact ih hrest (hpopped.runTask hlarger htask hdepth) (hpoppedRested.runTask i)
      · rw [if_neg hdepth] at hnext
        rw [← hnext] at hpopped
        have hdeeper := Nat.lt_of_not_le hdepth
        exact ih hother (hpopped.runTask_tooDeep hpoppedRested htask hdeeper)
          (hpoppedRested.runTask i)

theorem Twins.nextDeadline?_eq (htwins : Twins setting machine twin) :
    twin.nextDeadline? = machine.nextDeadline? := by
  rw [nextDeadline?, nextDeadline?, htwins.aligned.filterMap_deadline?]

/-- Time passes in both machines, up to a moment or until the test holds. -/
theorem Twins.passesUnless {stop : σ → Bool} {deadline : Nat} {result other : Bool × Machine σ}
    (hlarger : setting.engine.maxDepth ≤ larger)
    (hpasses : PassesUnless setting stop deadline machine result)
    (hother : PassesUnless (setting.withLimit larger) stop deadline twin other)
    (htwins : Twins setting machine twin) (hrested : Rested setting machine) :
    other.1 = result.1 ∧ Twins setting result.2 other.2 := by
  induction hpasses generalizing twin with
  | stopped hsettles hstop =>
      cases hother with
      | stopped hrest _ => exact ⟨rfl, htwins.settles hlarger hsettles hrest hrested⟩
      | last hrest hgoes | wake hrest hgoes =>
          rw [(htwins.settles hlarger hsettles hrest hrested).world, hstop] at hgoes
          cases hgoes
  | last hsettles hgoes hnone =>
      cases hother with
      | stopped hrest hstop =>
          rw [(htwins.settles hlarger hsettles hrest hrested).world, hgoes] at hstop
          cases hstop
      | last hrest => exact ⟨rfl, (htwins.settles hlarger hsettles hrest hrested).setClock deadline⟩
      | wake hrest _ hsome =>
          rw [(htwins.settles hlarger hsettles hrest hrested).nextDeadline?_eq, hnone] at hsome
          cases hsome
  | @wake machine quiet result next hsettles hgoes hnext _ ih =>
      have hquietRested : Rested setting quiet := hrested.settles hsettles
      cases hother with
      | stopped hrest hstop =>
          rw [(htwins.settles hlarger hsettles hrest hrested).world, hgoes] at hstop
          cases hstop
      | last hrest _ hnone =>
          rw [(htwins.settles hlarger hsettles hrest hrested).nextDeadline?_eq, hnext] at hnone
          cases hnone
      | wake hrest _ hsame hlater =>
          have hquiet := htwins.settles hlarger hsettles hrest hrested
          rw [hquiet.nextDeadline?_eq, hnext] at hsame
          obtain rfl := Option.some.inj hsame
          exact ih hlater (hquiet.setClock next) hquietRested

/-- The task and its twin came to the same end, or to none. -/
theorem Twins.outcome?_eq (htwins : Twins setting machine twin) {i j : TaskId}
    (hpaired : Paired setting machine i j) : twin.outcome? j = machine.outcome? i := by
  obtain ⟨hreaches, rfl⟩ := hpaired
  rw [reaches, depths, List.getElem?_map] at hreaches
  cases htask : machine.tasks[i]? with
  | none => simp [htask] at hreaches
  | some task =>
      have hdepth : task.job.depth ≤ setting.engine.maxDepth := by simpa [htask] using hreaches
      obtain ⟨other, hother, hstate⟩ := htwins.aligned.exists_twin htask hdepth
      rw [outcome?, outcome?, htask, hother, Option.map_some, Option.map_some]
      generalize task.state = state at hstate
      generalize other.state = twinState at hstate
      cases hstate <;> rfl

theorem Paired.of_depths {after : Machine σ} {i j : TaskId} (hpaired : Paired setting machine i j)
    (hdepths : depths machine.tasks <+: depths after.tasks) : Paired setting after i j := by
  obtain ⟨hreaches, hplace⟩ := hpaired
  obtain ⟨more, hmore⟩ := hdepths
  have hlength : i < (depths machine.tasks).length := by
    by_contra hlength
    rw [reaches, List.getElem?_eq_none (Nat.le_of_not_lt hlength)] at hreaches
    cases hreaches
  rw [Paired, ← hmore, reaches_append hlength, place_append hlength]
  exact ⟨hreaches, hplace⟩

theorem Settles.depths {after : Machine σ} (hsettles : Settles setting machine after) :
    depths machine.tasks <+: Machine.depths after.tasks := by
  induction hsettles with
  | quiet => exact List.prefix_rfl
  | @turn machine after i queue _ _ ih =>
      exact (depths_runTask setting { machine with queue } i).trans ih

theorem PassesUnless.depths {stop : σ → Bool} {deadline : Nat} {result : Bool × Machine σ}
    (hpasses : PassesUnless setting stop deadline machine result) :
    depths machine.tasks <+: Machine.depths result.2.tasks := by
  induction hpasses with
  | stopped hsettles => exact hsettles.depths
  | last hsettles =>
      rw [Machine.setClock, depths_map_wakeTask]
      exact hsettles.depths
  | wake hsettles _ _ _ ih =>
      rw [Machine.setClock, depths_map_wakeTask] at ih
      exact hsettles.depths.trans ih

theorem Awaits.depths {i : TaskId} {after : Machine σ} (hawaits : Awaits setting i machine after) :
    depths machine.tasks <+: Machine.depths after.tasks := by
  induction hawaits with
  | ended => exact List.prefix_rfl
  | settled _ hsettles => exact hsettles.depths
  | stop _ hsettles _ _ _ ih =>
      rw [Machine.setClock, depths_map_wakeTask] at ih
      exact hsettles.depths.trans ih

theorem Twins.isOver_eq (htwins : Twins setting machine twin) {i j : TaskId}
    (hpaired : Paired setting machine i j) : twin.isOver j = machine.isOver i := by
  rw [isOver, isOver, htwins.outcome?_eq hpaired]

/-- A task and its twin are waited for. -/
theorem Twins.awaits {i j : TaskId} {after afterTwin : Machine σ}
    (hlarger : setting.engine.maxDepth ≤ larger) (hawaits : Awaits setting i machine after)
    (hother : Awaits (setting.withLimit larger) j twin afterTwin)
    (htwins : Twins setting machine twin) (hrested : Rested setting machine)
    (hpaired : Paired setting machine i j) : Twins setting after afterTwin := by
  induction hawaits generalizing twin with
  | ended hover =>
      rw [← htwins.isOver_eq hpaired] at hover
      cases hother with
      | ended => exact htwins
      | settled hnot | stop hnot => cases hover.symm.trans hnot
  | @settled machine quiet hnot hsettles hends =>
      rw [← htwins.isOver_eq hpaired] at hnot
      cases hother with
      | ended hbefore => cases hbefore.symm.trans hnot
      | settled _ hrest => exact htwins.settles hlarger hsettles hrest hrested
      | stop _ hrest hbusy hnext =>
          have hquiet := htwins.settles hlarger hsettles hrest hrested
          rw [hquiet.isOver_eq (hpaired.of_depths hsettles.depths)] at hbusy
          rw [hquiet.nextDeadline?_eq] at hnext
          simp [hbusy, hnext] at hends
  | @stop machine quiet after next hnot hsettles hbusy hnext _ ih =>
      rw [← htwins.isOver_eq hpaired] at hnot
      have hquietPaired := hpaired.of_depths hsettles.depths
      have hquietRested : Rested setting quiet := hrested.settles hsettles
      cases hother with
      | ended hbefore => cases hbefore.symm.trans hnot
      | settled _ hrest hends =>
          have hquiet := htwins.settles hlarger hsettles hrest hrested
          rw [hquiet.isOver_eq hquietPaired, hquiet.nextDeadline?_eq] at hends
          simp [hbusy, hnext] at hends
      | stop _ hrest _ hsame hlater =>
          have hquiet := htwins.settles hlarger hsettles hrest hrested
          rw [hquiet.nextDeadline?_eq, hnext] at hsame
          obtain rfl := Option.some.inj hsame
          apply ih hlater (hquiet.setClock next) hquietRested
          rw [Paired, Machine.setClock, depths_map_wakeTask]
          exact hquietPaired

end

end Machine

end LivePage
