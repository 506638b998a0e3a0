import LivePage.Proofs.Schedule.Crowd

/-!
# Histories

What the history of a crowd tells.  The acts of each run and of each task, taken
in their order, are a way of its script; the tasks that were started are the tasks
that are there; the page is what the writes of the history make of the first one,
and every reply came from the surroundings.
-/

namespace LivePage

/-- A run stands where some acts have brought its script. -/
def ThreadState.Follows (script : Script Run) (acts : List Act) : ThreadState → Prop
  | .waiting _ rest => Script.Leads script acts rest
  | .ended run => Script.Walk script acts run

/-- A task stands where some acts have brought its script. -/
def TaskState.Follows (script : Script Outcome) (acts : List Act) : TaskState → Prop
  | .ready rest => Script.Leads script acts rest
  | .waiting _ rest => Script.Leads script acts rest
  | .finished outcome => Script.Walk script acts outcome
  | .aborted => ∃ rest, Script.Leads script acts rest

/-- The acts of a run begin a walk through its script, and are a whole one if it has ended. -/
theorem ThreadState.Follows.exists_walk {state : ThreadState} {script : Script Run}
    {acts : List Act} (hfollows : state.Follows script acts) :
    ∃ later run, Script.Walk script (acts ++ later) run ∧
      ∀ result, state = .ended result → later = [] ∧ run = result := by
  cases state with
  | waiting deadline rest =>
      obtain ⟨later, run, hwalk⟩ := rest.exists_walk
      exact ⟨later, run, Script.Leads.walk hfollows hwalk, by simp⟩
  | ended run =>
      refine ⟨[], run, by rwa [List.append_nil], ?_⟩
      rintro result ⟨⟩
      exact ⟨rfl, rfl⟩

/-- The acts of a task begin a walk through its script, and are a whole one if it has
finished. -/
theorem TaskState.Follows.exists_walk {state : TaskState} {script : Script Outcome}
    {acts : List Act} (hfollows : state.Follows script acts) :
    ∃ later outcome, Script.Walk script (acts ++ later) outcome ∧
      ∀ result, state = .finished result → later = [] ∧ outcome = result := by
  have hgoesOn {rest : Script Outcome} (hleads : Script.Leads script acts rest)
      (hstate : ∀ result, state ≠ .finished result) :
      ∃ later outcome, Script.Walk script (acts ++ later) outcome ∧
        ∀ result, state = .finished result → later = [] ∧ outcome = result := by
    obtain ⟨later, outcome, hwalk⟩ := rest.exists_walk
    exact ⟨later, outcome, hleads.walk hwalk, fun result heq => absurd heq (hstate result)⟩
  cases state with
  | ready rest => exact hgoesOn hfollows (by simp)
  | waiting deadline rest => exact hgoesOn hfollows (by simp)
  | aborted =>
      obtain ⟨rest, hleads⟩ := hfollows
      exact hgoesOn hleads (by simp)
  | finished outcome =>
      refine ⟨[], outcome, by rwa [List.append_nil], ?_⟩
      rintro result ⟨⟩
      exact ⟨rfl, rfl⟩

/-- The run at a place stands where some acts have brought it; where there is no
run, there are no acts. -/
def Engine.ThreadFollows (engine : Engine) (acts : List Act) : Option Thread → Prop
  | some thread => thread.state.Follows (engine.runErrand thread.errand) acts
  | none => acts = []

/-- The task at a place stands where some acts have brought it; where there is no
task, there are no acts. -/
def Engine.TaskFollows (engine : Engine) (acts : List Act) : Option Task → Prop
  | some task => task.state.Follows (engine.runJob task.job) acts
  | none => acts = []

theorem ThreadState.follows_afterTurn {script rest : Script Run} {told acts : List Act}
    {progress : Progress Run} (clock : Nat) (hleads : Script.Leads script told rest)
    (hof : progress.Of rest acts) :
    (ThreadState.afterTurn clock progress).Follows script (told ++ acts) := by
  cases progress with
  | ended run => exact hleads.walk hof
  | waits ms next => exact hleads.trans hof.2.1

theorem TaskState.follows_afterTurn {script rest : Script Outcome} {told acts : List Act}
    {progress : Progress Outcome} (clock : Nat) (hleads : Script.Leads script told rest)
    (hof : progress.Of rest acts) :
    (TaskState.afterTurn clock progress).Follows script (told ++ acts) := by
  cases progress with
  | ended outcome => exact hleads.walk hof
  | waits ms next => exact hleads.trans hof.2.1

theorem TaskState.Calms.follows {state after : TaskState} {script : Script Outcome}
    {acts : List Act} (hcalms : state.Calms after) (hfollows : state.Follows script acts) :
    after.Follows script acts := by
  cases hcalms with
  | same => exact hfollows
  | woken => exact hfollows
  | aborted hover =>
      cases state with
      | ready rest => exact ⟨rest, hfollows⟩
      | waiting deadline rest => exact ⟨rest, hfollows⟩
      | finished | aborted => simp [isOver] at hover

/-- Tasks that do not have a turn follow the same acts as before. -/
theorem Engine.TaskFollows.calm {engine : Engine} {acts : List Act} {tasks after : List Task}
    (hcalms : List.Forall₂ Task.Calms tasks after) {t : TaskId}
    (hfollows : engine.TaskFollows acts tasks[t]?) : engine.TaskFollows acts after[t]? := by
  cases htask : tasks[t]? with
  | none =>
      rw [htask] at hfollows
      rw [List.getElem?_eq_none (hcalms.length_eq ▸ List.getElem?_eq_none_iff.1 htask)]
      exact hfollows
  | some task =>
      obtain ⟨other, hother, hjob, hstate⟩ := Machine.getElem?_of_forall₂ hcalms htask
      rw [htask] at hfollows
      rw [hother, TaskFollows, hjob]
      exact hstate.follows hfollows

/-- A task that is new has done nothing, like one that is not there. -/
theorem Engine.TaskFollows.append {setting : Setting σ} {acts : List Act} {tasks : List Task}
    (jobs : List Job) {t : TaskId} (hfollows : setting.engine.TaskFollows acts tasks[t]?) :
    setting.engine.TaskFollows acts (tasks ++ jobs.map setting.newTask)[t]? := by
  rw [List.getElem?_append]
  split
  · exact hfollows
  · next hlength =>
      rw [List.getElem?_eq_none (Nat.le_of_not_lt hlength)] at hfollows
      obtain rfl : acts = [] := hfollows
      rw [List.getElem?_map]
      cases jobs[t - tasks.length]? with
      | none => exact rfl
      | some job => exact .refl

namespace Crowd

variable {σ : Type} {setting : Setting σ}

/-- An actor stands where some acts have brought it. -/
def Follows (setting : Setting σ) (crowd : Crowd σ) (acts : List Act) : Actor → Prop
  | .thread i => setting.engine.ThreadFollows acts crowd.threads[i]?
  | .task t => setting.engine.TaskFollows acts crowd.machine.tasks[t]?

theorem actsOf_afterTurn (crowd : Crowd σ) (actor other : Actor) (acts : List Act)
    (machine : Machine σ) (threads : List Thread) :
    (crowd.afterTurn actor acts machine threads).actsOf other =
      crowd.actsOf other ++ if actor = other then acts else [] := by
  have hmap : (acts.map (Deed.acted actor)).filterMap (Deed.actOf? other) =
      if actor = other then acts else [] := by
    rw [List.filterMap_map]
    split
    · next heq =>
        subst heq
        simp [Function.comp_def, Deed.actOf?]
    · next hne => simp [Function.comp_def, Deed.actOf?, hne]
  rw [actsOf, afterTurn, List.filterMap_append, hmap]
  rfl

/-- All actors stand where their acts have brought them. -/
def AllFollow (setting : Setting σ) (crowd : Crowd σ) : Prop :=
  ∀ actor, crowd.Follows setting (crowd.actsOf actor) actor

theorem AllFollow.calm {crowd : Crowd σ} {machine : Machine σ}
    (hfollow : crowd.AllFollow setting)
    (hcalms : List.Forall₂ Task.Calms crowd.machine.tasks machine.tasks) :
    AllFollow setting { crowd with machine } := by
  intro actor
  have hactor := hfollow actor
  cases actor with
  | thread i => exact hactor
  | task t => exact hactor.calm hcalms

theorem actsOf_written (setting : Setting σ) (crowd : Crowd σ) (ops : List StoreOp)
    (actor : Actor) : (crowd.step setting (.write ops)).actsOf actor = crowd.actsOf actor := by
  simp [actsOf, step, Deed.actOf?]

theorem AllFollow.written {crowd : Crowd σ} (hfollow : crowd.AllFollow setting)
    (ops : List StoreOp) : (crowd.step setting (.write ops)).AllFollow setting := by
  intro actor
  have hactor := hfollow actor
  rw [actsOf_written]
  cases actor with
  | thread i | task t => exact hactor

/-- A run that begins. -/
theorem AllFollow.entered {crowd : Crowd σ} (hfollow : crowd.AllFollow setting)
    (errand : Errand) : (crowd.step setting (.enter errand)).AllFollow setting := by
  have hextends := Machine.extends_advance setting (setting.engine.runErrand errand) crowd.machine
  intro other
  have hother := hfollow other
  rw [step, actsOf_afterTurn]
  cases other with
  | task t =>
      rw [if_neg (by simp), List.append_nil, Follows, afterTurn, hextends.tasks]
      exact hother.append _
  | thread i =>
      rw [Follows, afterTurn]
      rcases Nat.lt_trichotomy i crowd.threads.length with hlt | rfl | hgt
      · rw [if_neg (by simp; omega), List.append_nil, List.getElem?_append_left hlt]
        exact hother
      · rw [Follows, List.getElem?_eq_none (Nat.le_refl _)] at hother
        have hnone : crowd.actsOf (.thread crowd.threads.length) = [] := hother
        rw [hnone, if_pos rfl, List.getElem?_concat_length]
        exact ThreadState.follows_afterTurn _ .refl (Machine.of_advance ..)
      · rw [Follows, List.getElem?_eq_none (Nat.le_of_lt hgt)] at hother
        rw [if_neg (by simp; omega), List.append_nil, List.getElem?_eq_none (by simp; omega)]
        exact hother

/-- A run that goes on. -/
theorem AllFollow.wentOn {crowd : Crowd σ} (hfollow : crowd.AllFollow setting)
    {i deadline : Nat} {script : Script Run}
    (hstate : (crowd.threads[i]?).map Thread.state = some (.waiting deadline script)) :
    (crowd.afterTurn (.thread i) (Machine.acts setting script crowd.machine)
      (Machine.advance setting script crowd.machine).2
      (crowd.threads.modify i fun thread => { thread with
        state := .afterTurn crowd.machine.clock
          (Machine.advance setting script crowd.machine).1 })).AllFollow setting := by
  have hextends := Machine.extends_advance setting script crowd.machine
  intro other
  have hother := hfollow other
  rw [actsOf_afterTurn]
  cases other with
  | task t =>
      rw [if_neg (by simp), List.append_nil, Follows, afterTurn, hextends.tasks]
      exact hother.append _
  | thread j =>
      rw [Follows, afterTurn]
      by_cases hij : i = j
      · subst hij
        obtain ⟨own, hown, hwaiting⟩ := Option.map_eq_some_iff.1 hstate
        rw [Follows, hown, Engine.ThreadFollows, hwaiting] at hother
        rw [List.getElem?_modify_eq, hown, if_pos rfl]
        exact ThreadState.follows_afterTurn _ hother (Machine.of_advance ..)
      · rw [List.getElem?_modify_ne _ _ hij, if_neg (by simpa using hij), List.append_nil]
        exact hother

/-- A task that has its turn. -/
theorem AllFollow.turned {crowd : Crowd σ} (hfollow : crowd.AllFollow setting) {task : TaskId}
    {script : Script Outcome}
    (hready : (crowd.machine.tasks[task]?).map Task.state = some (.ready script)) :
    (crowd.afterTurn (.task task) (Machine.acts setting script crowd.machine)
      (crowd.machine.runTask setting task) crowd.threads).AllFollow setting := by
  have hextends := Machine.extends_advance setting script crowd.machine
  have htasks : (crowd.machine.runTask setting task).tasks =
      (crowd.machine.tasks ++ (Act.jobs (Machine.acts setting script crowd.machine)).map
        setting.newTask).modify task fun own => { own with
          state := .afterTurn crowd.machine.clock
            (Machine.advance setting script crowd.machine).1 } := by
    rw [Machine.runTask_of_ready setting crowd.machine hready, ← hextends.tasks, ← hextends.clock]
    rfl
  intro other
  have hother := hfollow other
  rw [actsOf_afterTurn]
  cases other with
  | thread i =>
      rw [if_neg (by simp), List.append_nil]
      exact hother
  | task t =>
      rw [Follows, afterTurn, htasks]
      by_cases heq : task = t
      · subst heq
        obtain ⟨own, hown, hstate⟩ := Option.map_eq_some_iff.1 hready
        rw [Follows, hown, Engine.TaskFollows, hstate] at hother
        rw [List.getElem?_modify_eq,
          List.getElem?_append_left (List.getElem?_eq_some_iff.1 hown).1, hown, if_pos rfl]
        exact TaskState.follows_afterTurn _ hother (Machine.of_advance ..)
      · rw [List.getElem?_modify_ne _ _ heq, if_neg (by simpa using heq), List.append_nil]
        exact hother.append _

/-- Whatever happens, all actors stand where their acts have brought them. -/
theorem AllFollow.change {crowd after : Crowd σ} {move : Move}
    (hfollow : crowd.AllFollow setting) (hchange : Change setting crowd move after) :
    after.AllFollow setting := by
  cases hchange with
  | calm _ _ hcalms => exact hfollow.calm hcalms
  | written ops => exact hfollow.written ops
  | entered errand => exact hfollow.entered errand
  | wentOn hstate => exact hfollow.wentOn hstate
  | @turned task script hready =>
      have hpopped : AllFollow setting { crowd with machine := crowd.machine.pop task } :=
        hfollow.calm (List.forall₂_same.2 fun task _ => .refl task)
      exact hpopped.turned hready

/-- What the history of a crowd tells. -/
structure Recorded (setting : Setting σ) (world : World σ) (crowd : Crowd σ) : Prop where
  /-- The acts of every actor are a way of its script. -/
  follows : ∀ actor, crowd.Follows setting (crowd.actsOf actor) actor
  /-- The tasks are those that were started, in that order. -/
  started : crowd.history.filterMap Deed.started? = (crowd.machine.tasks.map Task.job).zipIdx
  listeners : crowd.machine.world.listeners = world.listeners
  page : crowd.machine.world.page =
    world.page.applyAll (crowd.history.flatMap (Deed.writes world.listeners))
  /-- Every reply came from the surroundings. -/
  answered : ∀ actor message reply, .acted actor (.asked message reply) ∈ crowd.history →
    ∃ page state, (setting.host.answer page message state).1.reply = reply

theorem recorded_fresh (world : World σ) : Recorded setting world (fresh world) where
  follows := fun actor => by cases actor <;> rfl
  started := rfl
  listeners := rfl
  page := rfl
  answered := fun _ _ _ hmem => absurd hmem List.not_mem_nil

theorem started_acted (actor : Actor) (acts : List Act) :
    (acts.map (Deed.acted actor)).filterMap Deed.started? = acts.filterMap Act.started? := by
  rw [List.filterMap_map]
  rfl

theorem writes_acted (listeners : Listeners Listener) (actor : Actor) (acts : List Act) :
    (acts.map (Deed.acted actor)).flatMap (Deed.writes listeners) =
      acts.flatMap (Act.writes listeners) := by
  rw [List.flatMap_map]
  rfl

/-- The history behind a turn, whoever had it, as far as it does not depend on
where the actors stand. -/
theorem Recorded.of_turn {world : World σ} {crowd : Crowd σ}
    (hrecorded : crowd.Recorded setting world) (actor : Actor) (script : Script α)
    {machine : Machine σ} {threads : List Thread}
    (hpage : machine.world.page =
      (Machine.advance setting script crowd.machine).2.world.page)
    (hlisteners : machine.world.listeners =
      (Machine.advance setting script crowd.machine).2.world.listeners)
    (hjobs : machine.tasks.map Task.job = crowd.machine.tasks.map Task.job ++
      Act.jobs (Machine.acts setting script crowd.machine))
    (hfollow : (crowd.afterTurn actor (Machine.acts setting script crowd.machine) machine
      threads).AllFollow setting) :
    (crowd.afterTurn actor (Machine.acts setting script crowd.machine) machine
      threads).Recorded setting world := by
  obtain ⟨hlisteners', hpage'⟩ := Machine.page_advance setting script crowd.machine
  constructor
  · exact hfollow
  · rw [afterTurn, List.filterMap_append, started_acted, hrecorded.started,
      Machine.started_acts, hjobs, List.zipIdx_append, List.length_map, Nat.zero_add]
  · exact hlisteners.trans (hlisteners'.trans hrecorded.listeners)
  · rw [afterTurn, List.flatMap_append, writes_acted, PageState.applyAll_append, ← hrecorded.page,
      ← hrecorded.listeners]
    exact hpage.trans hpage'
  · intro other message reply hmem
    rcases List.mem_append.1 hmem with hold | hnew
    · exact hrecorded.answered other message reply hold
    · obtain ⟨act, hact, heq⟩ := List.mem_map.1 hnew
      obtain ⟨-, rfl⟩ := Deed.acted.inj heq
      exact Machine.exists_answer_of_asked hact

theorem Recorded.calm {world : World σ} {crowd : Crowd σ} {machine : Machine σ}
    (hrecorded : crowd.Recorded setting world)
    (hpage : machine.world.page = crowd.machine.world.page)
    (hlisteners : machine.world.listeners = crowd.machine.world.listeners)
    (hcalms : List.Forall₂ Task.Calms crowd.machine.tasks machine.tasks) :
    Recorded setting world { crowd with machine } where
  follows := AllFollow.calm hrecorded.follows hcalms
  started := by
    have hjobs : machine.tasks.map Task.job = crowd.machine.tasks.map Task.job := by
      rw [← List.forall₂_eq_eq_eq, List.forall₂_map_left_iff, List.forall₂_map_right_iff]
      exact hcalms.flip.imp fun _ _ hcalms => hcalms.1
    rw [hjobs]
    exact hrecorded.started
  listeners := hlisteners.trans hrecorded.listeners
  page := hpage.trans hrecorded.page
  answered := hrecorded.answered

theorem Recorded.written {world : World σ} {crowd : Crowd σ}
    (hrecorded : crowd.Recorded setting world) (ops : List StoreOp) :
    (crowd.step setting (.write ops)).Recorded setting world where
  follows := AllFollow.written hrecorded.follows ops
  started := by
    rw [step, List.filterMap_append]
    exact (List.append_nil _).trans hrecorded.started
  listeners := hrecorded.listeners
  page := by
    rw [step, List.flatMap_append, PageState.applyAll_append, ← hrecorded.page]
    simp [Deed.writes]
  answered := fun actor message reply hmem => by
    refine hrecorded.answered actor message reply ?_
    simpa [step] using hmem

/-- A run that begins. -/
theorem Recorded.entered {world : World σ} {crowd : Crowd σ}
    (hrecorded : crowd.Recorded setting world) (errand : Errand) :
    (crowd.step setting (.enter errand)).Recorded setting world := by
  have hextends := Machine.extends_advance setting (setting.engine.runErrand errand) crowd.machine
  refine hrecorded.of_turn _ _ rfl rfl ?_ (AllFollow.entered hrecorded.follows errand)
  rw [hextends.tasks, List.map_append, List.map_map]
  exact congrArg _ (List.map_id _)

/-- A run that goes on. -/
theorem Recorded.wentOn {world : World σ} {crowd : Crowd σ}
    (hrecorded : crowd.Recorded setting world) {i deadline : Nat} {script : Script Run}
    (hstate : (crowd.threads[i]?).map Thread.state = some (.waiting deadline script)) :
    (crowd.afterTurn (.thread i) (Machine.acts setting script crowd.machine)
      (Machine.advance setting script crowd.machine).2
      (crowd.threads.modify i fun thread => { thread with
        state := .afterTurn crowd.machine.clock
          (Machine.advance setting script crowd.machine).1 })).Recorded setting world := by
  have hextends := Machine.extends_advance setting script crowd.machine
  refine hrecorded.of_turn _ _ rfl rfl ?_ (AllFollow.wentOn hrecorded.follows hstate)
  rw [hextends.tasks, List.map_append, List.map_map]
  exact congrArg _ (List.map_id _)

/-- A task that has its turn. -/
theorem Recorded.turned {world : World σ} {crowd : Crowd σ}
    (hrecorded : crowd.Recorded setting world) {task : TaskId} {script : Script Outcome}
    (hready : (crowd.machine.tasks[task]?).map Task.state = some (.ready script)) :
    (crowd.afterTurn (.task task) (Machine.acts setting script crowd.machine)
      (crowd.machine.runTask setting task) crowd.threads).Recorded setting world := by
  have hextends := Machine.extends_advance setting script crowd.machine
  refine hrecorded.of_turn _ script ?_ ?_ ?_ (AllFollow.turned hrecorded.follows hready)
  · rw [Machine.runTask_of_ready setting crowd.machine hready]
    rfl
  · rw [Machine.runTask_of_ready setting crowd.machine hready]
    rfl
  · rw [Machine.runTask_of_ready setting crowd.machine hready, Machine.rest, Machine.jobs_setState,
      hextends.tasks, List.map_append, List.map_map]
    exact congrArg _ (List.map_id _)

/-- What one move does is told by the history. -/
theorem Recorded.change {world : World σ} {crowd after : Crowd σ} {move : Move}
    (hrecorded : crowd.Recorded setting world) (hchange : Change setting crowd move after) :
    after.Recorded setting world := by
  cases hchange with
  | calm hpage hlisteners hcalms => exact hrecorded.calm hpage hlisteners hcalms
  | written ops => exact hrecorded.written ops
  | entered errand => exact hrecorded.entered errand
  | wentOn hstate => exact hrecorded.wentOn hstate
  | @turned task script hready =>
      have hpopped : Recorded setting world { crowd with machine := crowd.machine.pop task } :=
        hrecorded.calm rfl rfl (List.forall₂_same.2 fun task _ => .refl task)
      exact hpopped.turned hready

theorem Recorded.play {world : World σ} {crowd : Crowd σ}
    (hrecorded : crowd.Recorded setting world) (moves : List Move) :
    (crowd.play setting moves).Recorded setting world := by
  induction moves generalizing crowd with
  | nil => exact hrecorded
  | cons move rest ih => exact ih (hrecorded.change (change_step setting crowd move))

/-- At every moment of every schedule the history of a crowd tells all that
happened. -/
theorem recorded_play (setting : Setting σ) (world : World σ) (moves : List Move) :
    ((fresh world).play setting moves).Recorded setting world :=
  (recorded_fresh world).play moves

end Crowd

/-- All that a run may still do satisfies a predicate. -/
def ThreadState.Does (p : Act → Prop) : ThreadState → Prop
  | .waiting _ script => script.Does p
  | .ended _ => True

/-- All that a task may still do satisfies a predicate. -/
def TaskState.Does (p : Act → Prop) : TaskState → Prop
  | .ready script => script.Does p
  | .waiting _ script => script.Does p
  | _ => True

theorem TaskState.Calms.does {p : Act → Prop} {state after : TaskState}
    (hcalms : state.Calms after) (hdoes : state.Does p) : after.Does p := by
  cases hcalms with
  | same | woken => exact hdoes
  | aborted => trivial

/-- What is done in a turn satisfies the predicate. -/
theorem Progress.Of.does {p : Act → Prop} {script : Script α} {acts : List Act}
    {progress : Progress α} (hof : progress.Of script acts) (hdoes : script.Does p) :
    ∀ act ∈ acts, p act := by
  cases progress with
  | ended result => exact hdoes acts result hof
  | waits ms next => exact (hdoes.of_leads hof.2.1).1

theorem ThreadState.does_afterTurn {p : Act → Prop} {script : Script Run} {acts : List Act}
    {progress : Progress Run} (clock : Nat) (hof : progress.Of script acts)
    (hdoes : script.Does p) : (ThreadState.afterTurn clock progress).Does p := by
  cases progress with
  | ended run => trivial
  | waits ms next => exact (hdoes.of_leads hof.2.1).2

theorem TaskState.does_afterTurn {p : Act → Prop} {script : Script Outcome} {acts : List Act}
    {progress : Progress Outcome} (clock : Nat) (hof : progress.Of script acts)
    (hdoes : script.Does p) : (TaskState.afterTurn clock progress).Does p := by
  cases progress with
  | ended outcome => trivial
  | waits ms next => exact (hdoes.of_leads hof.2.1).2

/-- A property of tasks holds of a list in which one of them was replaced. -/
theorem forall_mem_modify {α : Type} {p : α → Prop} {f : α → α} {items : List α} {i : Nat}
    (hall : ∀ item ∈ items, p item) (hf : ∀ item, items[i]? = some item → p (f item)) :
    ∀ item ∈ items.modify i f, p item := by
  intro item hitem
  obtain ⟨j, hj⟩ := List.mem_iff_getElem?.1 hitem
  by_cases hij : i = j
  · subst hij
    rw [List.getElem?_modify_eq] at hj
    obtain ⟨old, hold, rfl⟩ := Option.map_eq_some_iff.1 hj
    exact hf old hold
  · rw [List.getElem?_modify_ne _ _ hij] at hj
    exact hall item (List.mem_of_getElem? hj)

namespace Crowd

/-- All that was done on a page, and all that may still be done, satisfies a
predicate. -/
structure Behaves (p : Act → Prop) (crowd : Crowd σ) : Prop where
  threads : ∀ thread ∈ crowd.threads, thread.state.Does p
  tasks : ∀ task ∈ crowd.machine.tasks, task.state.Does p
  acts : ∀ actor act, .acted actor act ∈ crowd.history → p act

variable {p : Act → Prop} {crowd after : Crowd σ}

theorem behaves_fresh (p : Act → Prop) (world : World σ) : Behaves p (fresh world) where
  threads := fun _ hmem => absurd hmem List.not_mem_nil
  tasks := fun _ hmem => absurd hmem List.not_mem_nil
  acts := fun _ _ hmem => absurd hmem List.not_mem_nil

/-- A run that waits will go on as the predicate says. -/
theorem Behaves.does_of_waiting (hbehaves : crowd.Behaves p) {i deadline : Nat}
    {script : Script Run}
    (hstate : (crowd.threads[i]?).map Thread.state = some (.waiting deadline script)) :
    script.Does p := by
  obtain ⟨own, hown, hwaiting⟩ := Option.map_eq_some_iff.1 hstate
  have hdoes := hbehaves.threads own (List.mem_of_getElem? hown)
  rwa [hwaiting] at hdoes

/-- A task that is ready will go on as the predicate says. -/
theorem Behaves.does_of_ready (hbehaves : crowd.Behaves p) {task : TaskId}
    {script : Script Outcome}
    (hstate : (crowd.machine.tasks[task]?).map Task.state = some (.ready script)) :
    script.Does p := by
  obtain ⟨own, hown, hready⟩ := Option.map_eq_some_iff.1 hstate
  have hdoes := hbehaves.tasks own (List.mem_of_getElem? hown)
  rwa [hready] at hdoes

theorem Behaves.acts_afterTurn (hbehaves : crowd.Behaves p) {script : Script α}
    (hdoes : script.Does p) {actor : Actor} {machine : Machine σ} {threads : List Thread} :
    ∀ other act, .acted other act ∈ (crowd.afterTurn actor
      (Machine.acts setting script crowd.machine) machine threads).history → p act := by
  intro other act hmem
  rcases List.mem_append.1 hmem with hold | hnew
  · exact hbehaves.acts other act hold
  · obtain ⟨told, htold, heq⟩ := List.mem_map.1 hnew
    obtain ⟨-, rfl⟩ := Deed.acted.inj heq
    exact (Machine.of_advance setting script crowd.machine).does hdoes told htold

/-- The tasks behind a turn satisfy the predicate, if starting a job means to. -/
theorem Behaves.tasks_advance (hbehaves : crowd.Behaves p)
    (hstarted : ∀ job task, p (.started job task) → (setting.engine.runJob job).Does p)
    {script : Script α} (hdoes : script.Does p) :
    ∀ task ∈ (Machine.advance setting script crowd.machine).2.tasks, task.state.Does p := by
  intro task htask
  rw [(Machine.extends_advance setting script crowd.machine).tasks] at htask
  rcases List.mem_append.1 htask with hold | hnew
  · exact hbehaves.tasks task hold
  · obtain ⟨job, hjob, rfl⟩ := List.mem_map.1 hnew
    obtain ⟨act, hact, hsome⟩ := List.mem_filterMap.1 hjob
    have hp := (Machine.of_advance setting script crowd.machine).does hdoes act hact
    cases act with
    | started other id =>
        obtain rfl := Option.some.inj hsome
        exact hstarted other id hp
    | _ => cases hsome

theorem Behaves.change {move : Move} (hbehaves : crowd.Behaves p)
    (hstarted : ∀ job task, p (.started job task) → (setting.engine.runJob job).Does p)
    (hmove : ∀ errand, move = .enter errand → (setting.engine.runErrand errand).Does p)
    (hchange : Change setting crowd move after) : after.Behaves p := by
  cases hchange with
  | calm _ _ hcalms =>
      refine ⟨hbehaves.threads, fun task htask => ?_, hbehaves.acts⟩
      obtain ⟨t, ht⟩ := List.mem_iff_getElem?.1 htask
      obtain ⟨old, hold, hcalm⟩ := Machine.getElem?_of_forall₂ hcalms.flip ht
      exact hcalm.2.does (hbehaves.tasks old (List.mem_of_getElem? hold))
  | written ops =>
      refine ⟨hbehaves.threads, hbehaves.tasks, fun actor act hmem => ?_⟩
      exact hbehaves.acts actor act (by simpa [step] using hmem)
  | entered errand =>
      have hdoes := hmove errand rfl
      refine ⟨fun thread hthread => ?_, hbehaves.tasks_advance hstarted hdoes,
        hbehaves.acts_afterTurn hdoes⟩
      rcases List.mem_append.1 hthread with hold | hnew
      · exact hbehaves.threads thread hold
      · rw [List.mem_singleton.1 hnew]
        exact ThreadState.does_afterTurn _ (Machine.of_advance ..) hdoes
  | wentOn hstate =>
      have hdoes := hbehaves.does_of_waiting hstate
      refine ⟨?_, hbehaves.tasks_advance hstarted hdoes, hbehaves.acts_afterTurn hdoes⟩
      apply forall_mem_modify hbehaves.threads
      intro thread _
      exact ThreadState.does_afterTurn _ (Machine.of_advance ..) hdoes
  | @turned task script hready =>
      have hpopped : Behaves p { crowd with machine := crowd.machine.pop task } :=
        ⟨hbehaves.threads, hbehaves.tasks, hbehaves.acts⟩
      have hdoes := hpopped.does_of_ready hready
      refine ⟨hbehaves.threads, ?_, hpopped.acts_afterTurn hdoes⟩
      rw [afterTurn, Machine.runTask_of_ready setting (crowd.machine.pop task) hready]
      apply forall_mem_modify (hpopped.tasks_advance hstarted hdoes)
      intro task _
      exact TaskState.does_afterTurn _ (Machine.of_advance ..) hdoes

/-- What a move does satisfies a predicate that covers the kinds of all actions of
the list that it may begin to run. -/
theorem Behaves.step {k : ActionKind → Prop} (hcovers : setting.engine.Covers k p)
    (hstarted : ∀ job task, p (.started job task) → ∀ kind ∈ job.action.kinds, k kind)
    {move : Move} (hbehaves : crowd.Behaves p)
    (hmove : ∀ errand, move = .enter errand → ∀ kind ∈ Action.listKinds errand.actions, k kind) :
    (crowd.step setting move).Behaves p := by
  have hchange := change_step setting crowd move
  refine hbehaves.change (fun job task hp => ?_) (fun errand heq => ?_) hchange
  · exact hcovers.does_runJob (hstarted job task hp)
  · exact hcovers.does_runList _ _ _ (hmove errand heq)

/-- What a move does satisfies a predicate that covers all kinds. -/
theorem Behaves.step_of_covers (hcovers : setting.engine.Covers (fun _ => True) p)
    (hbehaves : crowd.Behaves p) (move : Move) : (crowd.step setting move).Behaves p :=
  hbehaves.step hcovers (fun _ _ _ _ _ => trivial) fun _ _ _ _ => trivial

/-- Whatever is done on a page satisfies a predicate that covers the kinds of all
actions of all lists that are run there. -/
theorem Behaves.play {k : ActionKind → Prop} (hcovers : setting.engine.Covers k p)
    (hstarted : ∀ job task, p (.started job task) → ∀ kind ∈ job.action.kinds, k kind)
    {moves : List Move} (hbehaves : crowd.Behaves p)
    (hmoves : ∀ errand, .enter errand ∈ moves → ∀ kind ∈ Action.listKinds errand.actions, k kind) :
    (crowd.play setting moves).Behaves p := by
  induction moves generalizing crowd with
  | nil => exact hbehaves
  | cons move rest ih =>
      refine ih (hbehaves.step hcovers hstarted fun errand heq => ?_) fun errand hmem => ?_
      · exact hmoves errand (heq ▸ .head rest)
      · exact hmoves errand (.tail _ hmem)

/-- Whatever is done on a page satisfies a predicate that covers all kinds. -/
theorem behaves_play (hcovers : setting.engine.Covers (fun _ => True) p) (world : World σ)
    (moves : List Move) : ((fresh world).play setting moves).Behaves p :=
  (behaves_fresh p world).play hcovers (fun _ _ _ _ _ => trivial) fun _ _ _ _ => trivial

end Crowd

end LivePage
