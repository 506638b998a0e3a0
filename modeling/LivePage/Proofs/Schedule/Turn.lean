import LivePage.Proofs.Run.Budget
import LivePage.Schedule.Machine

/-!
# Turns

What a task does when it has its turn.  It goes through a part of its script, up
to the end or to a moment at which it waits; meanwhile no other task changes, and
the jobs that it starts become new tasks behind all others.
-/

namespace LivePage

/-- How far the steps of a script brought it.  A script that waits has just done
the step that makes it wait. -/
def Progress.Of (s : Script α) (acts : List Act) : Progress α → Prop
  | .ended result => Script.Walk s acts result
  | .waits ms next =>
      0 < ms ∧ Script.Leads s acts next ∧ ∃ before act, acts = before ++ [act] ∧ act.cost = 1

theorem Progress.Of.cons {s next : Script α} {act : Act} {acts : List Act}
    {progress : Progress α} (hact : Script.Leads s [act] next) (hof : progress.Of next acts) :
    progress.Of s (act :: acts) := by
  cases progress with
  | ended result => exact hact.walk hof
  | waits ms rest =>
      obtain ⟨hms, hleads, before, last, rfl, hcost⟩ := hof
      exact ⟨hms, hact.trans hleads, act :: before, last, rfl, hcost⟩

/-- Where a task stands after its turn. -/
def TaskState.afterTurn (clock : Nat) : Progress Outcome → TaskState
  | .ended outcome => .finished outcome
  | .waits ms next => .waiting (clock + ms) next

/-- The task of a job that has not had a turn. -/
def Setting.newTask (setting : Setting σ) (job : Job) : Task where
  job := job
  state := .ready (setting.engine.runJob job)

/-- What an effect writes to a page with some listeners. -/
def Effect.writes (listeners : Listeners Listener) : Effect → List StoreOp
  | .store op => [op]
  | .refresh component => ((listeners.listener? component).map Listener.writes).getD []
  | .call _ => []

/-- What an act writes to a page with some listeners. -/
def Act.writes (listeners : Listeners Listener) : Act → List StoreOp
  | performed effect => effect.writes listeners
  | _ => []

theorem PageState.applyAll_append (page : PageState) (first second : List StoreOp) :
    page.applyAll (first ++ second) = (page.applyAll first).applyAll second :=
  List.foldl_append

theorem World.page_perform (host : Host σ) (world : World σ) (effect : Effect) :
    (world.perform host effect).listeners = world.listeners ∧
      (world.perform host effect).page = world.page.applyAll (effect.writes world.listeners) := by
  cases effect with
  | store op => exact ⟨rfl, rfl⟩
  | refresh component =>
      rw [perform, Effect.writes]
      cases world.listeners.listener? component <;> exact ⟨rfl, rfl⟩
  | call call => exact ⟨rfl, rfl⟩

namespace Machine

/-- A machine after some acts of one script: nothing is new but the tasks that
were started, and the state of the world. -/
structure Extends (setting : Setting σ) (machine after : Machine σ) (acts : List Act) : Prop where
  tasks : after.tasks = machine.tasks ++ (Act.jobs acts).map setting.newTask
  queue : after.queue =
    machine.queue ++ List.range' machine.tasks.length (Act.jobs acts).length
  clock : after.clock = machine.clock

theorem Extends.of_world {setting : Setting σ} {machine after : Machine σ} {act : Act}
    {acts : List Act} {world : World σ} (hact : act.job? = none)
    (hextends : Extends setting { machine with world } after acts) :
    Extends setting machine after (act :: acts) := by
  have hjobs : Act.jobs (act :: acts) = Act.jobs acts := by
    simp [Act.jobs, hact]
  constructor
  · rw [hjobs, hextends.tasks]
  · rw [hjobs, hextends.queue]
  · exact hextends.clock

theorem Extends.of_start {setting : Setting σ} {machine after : Machine σ} {job : Job}
    {acts : List Act} (hextends : Extends setting (machine.start setting job).2 after acts) :
    Extends setting machine after (.started job machine.tasks.length :: acts) := by
  have hjobs : Act.jobs (.started job machine.tasks.length :: acts) = job :: Act.jobs acts := rfl
  constructor
  · rw [hjobs, hextends.tasks]
    simp [start, Setting.newTask]
  · rw [hjobs, hextends.queue]
    simp [start, List.range'_succ]
  · exact hextends.clock

theorem advance_request (setting : Setting σ) (message : HttpRequest)
    (next : HttpReply → Script α) (machine : Machine σ) :
    advance setting (.request message next) machine =
      if (machine.answer setting message).1.delay = 0 then
        advance setting (next (machine.answer setting message).1.reply)
          (machine.answer setting message).2
      else (.waits (machine.answer setting message).1.delay
          (next (machine.answer setting message).1.reply),
        (machine.answer setting message).2) := rfl

/-- What a script does in its turn, in order. -/
def acts (setting : Setting σ) : Script α → Machine σ → List Act
  | .done _, _ => []
  | .perform effect next, machine =>
      .performed effect :: acts setting next (machine.perform setting effect)
  | .observe next, machine =>
      .observed machine.world.page :: acts setting (next machine.world.page) machine
  | .pause ms next, machine =>
      .paused ms :: if ms = 0 then acts setting next machine else []
  | .request message next, machine =>
      let (answer, machine) := machine.answer setting message
      .asked message answer.reply ::
        if answer.delay = 0 then acts setting (next answer.reply) machine else []
  | .start job next, machine =>
      let (task, machine) := machine.start setting job
      .started job task :: acts setting (next task) machine

theorem acts_request (setting : Setting σ) (message : HttpRequest) (next : HttpReply → Script α)
    (machine : Machine σ) :
    acts setting (.request message next) machine =
      .asked message (machine.answer setting message).1.reply ::
        if (machine.answer setting message).1.delay = 0 then
          acts setting (next (machine.answer setting message).1.reply)
            (machine.answer setting message).2
        else [] := rfl

/-- A script in its turn changes nothing but the world, and starts tasks. -/
theorem extends_advance (setting : Setting σ) (script : Script α) (machine : Machine σ) :
    Extends setting machine (advance setting script machine).2 (acts setting script machine) := by
  induction script generalizing machine with
  | done result => exact ⟨by simp [advance, acts, Act.jobs], by simp [advance, acts, Act.jobs], rfl⟩
  | perform effect next ih => exact (ih (machine.perform setting effect)).of_world rfl
  | observe next ih => exact (ih machine.world.page machine).of_world rfl
  | pause ms next ih =>
      by_cases hms : ms = 0
      · rw [advance, acts, if_pos hms, if_pos hms]
        exact (ih machine).of_world rfl
      · rw [advance, acts, if_neg hms, if_neg hms]
        exact ⟨by simp [Act.jobs, Act.job?], by simp [Act.jobs, Act.job?], rfl⟩
  | request message next ih =>
      rw [advance_request, acts_request]
      by_cases hdelay : (machine.answer setting message).1.delay = 0
      · rw [if_pos hdelay, if_pos hdelay]
        exact (ih (machine.answer setting message).1.reply
          (machine.answer setting message).2).of_world rfl
      · rw [if_neg hdelay, if_neg hdelay]
        exact ⟨by simp [Act.jobs, Act.job?, answer], by simp [Act.jobs, Act.job?, answer], rfl⟩
  | start job next ih => exact (ih machine.tasks.length (machine.start setting job).2).of_start

/-- A script in its turn goes along one of its ways. -/
theorem of_advance (setting : Setting σ) (script : Script α) (machine : Machine σ) :
    (advance setting script machine).1.Of script (acts setting script machine) := by
  induction script generalizing machine with
  | done result => exact .done
  | perform effect next ih => exact (ih (machine.perform setting effect)).cons (.perform .refl)
  | observe next ih => exact (ih machine.world.page machine).cons (.observe .refl)
  | pause ms next ih =>
      by_cases hms : ms = 0
      · rw [advance, acts, if_pos hms, if_pos hms]
        exact (ih machine).cons (.pause .refl)
      · rw [advance, acts, if_neg hms, if_neg hms]
        exact ⟨Nat.pos_of_ne_zero hms, .pause .refl, [], .paused ms, rfl, rfl⟩
  | request message next ih =>
      rw [advance_request, acts_request]
      by_cases hdelay : (machine.answer setting message).1.delay = 0
      · rw [if_pos hdelay, if_pos hdelay]
        exact (ih (machine.answer setting message).1.reply
          (machine.answer setting message).2).cons (.request .refl)
      · rw [if_neg hdelay, if_neg hdelay]
        exact ⟨Nat.pos_of_ne_zero hdelay, .request .refl, [], _, rfl, rfl⟩
  | start job next ih =>
      exact (ih machine.tasks.length (machine.start setting job).2).cons (.start .refl)

/-- A script in its turn goes along one of its ways, and changes nothing else. -/
theorem advance_spec (setting : Setting σ) (script : Script α) (machine : Machine σ) :
    ∃ acts, Extends setting machine (advance setting script machine).2 acts ∧
      (advance setting script machine).1.Of script acts :=
  ⟨acts setting script machine, extends_advance setting script machine,
    of_advance setting script machine⟩

/-- The names of the tasks that are started in a turn follow those of the tasks
that are there. -/
theorem started_acts (setting : Setting σ) (script : Script α) (machine : Machine σ) :
    (acts setting script machine).filterMap Act.started? =
      (Act.jobs (acts setting script machine)).zipIdx machine.tasks.length := by
  induction script generalizing machine with
  | done result => rfl
  | perform effect next ih => exact ih (machine.perform setting effect)
  | observe next ih => exact ih machine.world.page machine
  | pause ms next ih =>
      rw [acts]
      split
      · exact ih machine
      · rfl
  | request message next ih =>
      rw [acts_request]
      split
      · exact ih _ (machine.answer setting message).2
      · rfl
  | start job next ih =>
      have hlater := ih machine.tasks.length (machine.start setting job).2
      have hlength : (machine.start setting job).2.tasks.length = machine.tasks.length + 1 := by
        simp [start]
      rw [hlength] at hlater
      exact congrArg (_ :: ·) hlater

/-- Every reply comes from the surroundings. -/
theorem exists_answer_of_asked {setting : Setting σ} {script : Script α} {machine : Machine σ}
    {message : HttpRequest} {reply : HttpReply}
    (hasked : .asked message reply ∈ acts setting script machine) :
    ∃ page state, (setting.host.answer page message state).1.reply = reply := by
  induction script generalizing machine with
  | done result => exact absurd hasked List.not_mem_nil
  | perform effect next ih =>
      rcases List.mem_cons.1 hasked with h | hlater
      · cases h
      · exact ih hlater
  | observe next ih =>
      rcases List.mem_cons.1 hasked with h | hlater
      · cases h
      · exact ih _ hlater
  | pause ms next ih =>
      rcases List.mem_cons.1 hasked with h | hlater
      · cases h
      · split at hlater
        · exact ih hlater
        · exact absurd hlater List.not_mem_nil
  | request other next ih =>
      rw [acts_request] at hasked
      rcases List.mem_cons.1 hasked with h | hlater
      · obtain ⟨rfl, rfl⟩ := Act.asked.inj h
        exact ⟨machine.world.page, machine.world.host, rfl⟩
      · split at hlater
        · exact ih _ hlater
        · exact absurd hlater List.not_mem_nil
  | start job next ih =>
      rcases List.mem_cons.1 hasked with h | hlater
      · cases h
      · exact ih _ hlater

/-- The page after a turn is the page before it with the writes of the turn. -/
theorem page_advance (setting : Setting σ) (script : Script α) (machine : Machine σ) :
    (advance setting script machine).2.world.listeners = machine.world.listeners ∧
      (advance setting script machine).2.world.page =
        machine.world.page.applyAll
          ((acts setting script machine).flatMap (Act.writes machine.world.listeners)) := by
  induction script generalizing machine with
  | done result => exact ⟨rfl, rfl⟩
  | perform effect next ih =>
      obtain ⟨hlisteners, hpage⟩ := ih (machine.perform setting effect)
      obtain ⟨heffect, hwritten⟩ := machine.world.page_perform setting.host effect
      refine ⟨hlisteners.trans heffect, hpage.trans ?_⟩
      rw [acts, List.flatMap_cons, PageState.applyAll_append, perform, hwritten, heffect]
      rfl
  | observe next ih => exact ih machine.world.page machine
  | pause ms next ih =>
      rw [advance, acts]
      split
      · exact ih machine
      · exact ⟨rfl, rfl⟩
  | request message next ih =>
      rw [advance_request, acts_request]
      split
      · exact ih _ (machine.answer setting message).2
      · exact ⟨rfl, rfl⟩
  | start job next ih => exact ih machine.tasks.length (machine.start setting job).2

theorem modify_append_length (f : Task → Task) (before : List Task) (own : Task)
    (behind : List Task) :
    (before ++ own :: behind).modify before.length f = before ++ f own :: behind := by
  induction before with
  | nil => rfl
  | cons task before ih => simp [ih]

/-- The job of a task stays, whatever its state. -/
theorem jobs_setState (machine : Machine σ) (task : TaskId) (state : TaskState) :
    (machine.setState task state).tasks.map Task.job = machine.tasks.map Task.job := by
  rw [setState]
  apply List.ext_getElem
  · simp
  · intro i hfirst hsecond
    rw [List.getElem_map, List.getElem_map, List.getElem_modify]
    split <;> rfl

theorem runTask_of_ready (setting : Setting σ) (machine : Machine σ) {task : TaskId}
    {script : Script Outcome}
    (hready : (machine.tasks[task]?).map Task.state = some (.ready script)) :
    machine.runTask setting task =
      ((advance setting script machine).2.setState task
        (.afterTurn (advance setting script machine).2.clock
          (advance setting script machine).1)).rest setting := by
  rw [runTask, hready]
  simp only
  split
  · next hadvance => rw [hadvance, TaskState.afterTurn]
  · next hadvance => rw [hadvance, TaskState.afterTurn]

/-- A task that is not ready has no turn. -/
theorem runTask_of_not_ready (setting : Setting σ) {machine : Machine σ} {task : TaskId}
    (hready : ¬ ∃ script, (machine.tasks[task]?).map Task.state = some (.ready script)) :
    machine.runTask setting task = machine := by
  rw [runTask]
  split
  · next script hscript => exact absurd ⟨script, hscript⟩ hready
  · rfl

/-- The turn of a task changes that task alone, and the tasks that it starts come
behind all others. -/
theorem runTask_spec (setting : Setting σ) (machine : Machine σ) {task : TaskId}
    {script : Script Outcome}
    (hready : (machine.tasks[task]?).map Task.state = some (.ready script)) :
    ∃ before own behind acts progress,
      machine.tasks = before ++ own :: behind ∧ before.length = task ∧
      own.state = .ready script ∧ progress.Of script acts ∧
      (machine.runTask setting task).tasks =
        before ++ { own with state := .afterTurn machine.clock progress } ::
          (behind ++ (Act.jobs acts).map setting.newTask) ∧
      (machine.runTask setting task).queue =
        machine.queue ++ List.range' machine.tasks.length (Act.jobs acts).length ∧
      (machine.runTask setting task).clock = machine.clock := by
  obtain ⟨acts, hextends, hof⟩ := advance_spec setting script machine
  obtain ⟨own, hown, hstate⟩ := Option.map_eq_some_iff.1 hready
  obtain ⟨htask, rfl⟩ := List.getElem?_eq_some_iff.1 hown
  have hsplit : machine.tasks =
      machine.tasks.take task ++ machine.tasks[task] :: machine.tasks.drop (task + 1) := by
    rw [List.getElem_cons_drop, List.take_append_drop]
  have hlength : (machine.tasks.take task).length = task :=
    List.length_take_of_le (Nat.le_of_lt htask)
  refine ⟨machine.tasks.take task, machine.tasks[task], machine.tasks.drop (task + 1), acts,
    (advance setting script machine).1, hsplit, hlength, hstate, hof, ?_⟩
  have hmodify (state : TaskState) :
      ((advance setting script machine).2.setState task state).tasks =
        machine.tasks.take task ++ { machine.tasks[task] with state } ::
          (machine.tasks.drop (task + 1) ++ (Act.jobs acts).map setting.newTask) := by
    have hmodified := modify_append_length (fun t => { t with state })
      (machine.tasks.take task) machine.tasks[task]
      (machine.tasks.drop (task + 1) ++ (Act.jobs acts).map setting.newTask)
    rw [hlength] at hmodified
    rw [setState, hextends.tasks, ← hmodified, ← List.cons_append, ← List.append_assoc, ← hsplit]
  rw [runTask_of_ready setting machine hready, hextends.clock]
  exact ⟨hmodify _, hextends.queue, hextends.clock⟩

/-- No time passes in a turn. -/
theorem clock_runTask (setting : Setting σ) (machine : Machine σ) (task : TaskId) :
    (machine.runTask setting task).clock = machine.clock := by
  by_cases hready : ∃ script, (machine.tasks[task]?).map Task.state = some (.ready script)
  · obtain ⟨script, hready⟩ := hready
    obtain ⟨_, _, _, _, _, -, -, -, -, -, -, hclock⟩ := runTask_spec setting machine hready
    exact hclock
  · rw [runTask_of_not_ready setting hready]

end Machine

end LivePage
