import LivePage.Proofs.Schedule.Refreshings

/-!
# Scenes

Any number of runs and tasks on a page on which listeners come and go.  Every move gives a
turn to one actor at most.  A scene keeps the refreshes of all turns at their moments; at
every moment they are, actor by actor, those among its acts, and the listeners that were
called are theirs.
-/

namespace LivePage

/-- What happens on a page whose listeners come and go. -/
inductive Happening where
  | move (move : Move)
  /-- Listeners are registered or unregistered, and these are there then. -/
  | relisten (listeners : Listeners Listener)

/-- The errand of running the action of a job and nothing else. -/
def Job.errand (job : Job) : Errand where
  depth := job.depth
  context := job.context
  actions := [{ job.action with detached := false }]

/-- Whenever the script ends, no filter parameter was set last. -/
def Script.EndsClear (s : Script α) : Prop :=
  ∀ acts result, Script.Walk s acts result → Act.IsClear (Act.lastEffect none acts)

theorem Script.EndsClear.of_progress {s : Script α} {told acts : List Act} {rest : Script α}
    {progress : Progress α} (hclear : s.EndsClear) (hleads : Script.Leads s told rest)
    (hof : progress.Of rest acts) : Act.IsClear (Act.lastEffect none (told ++ acts)) := by
  cases progress with
  | ended result => exact hclear _ result (hleads.walk hof)
  | waits ms next =>
      -- a turn that is not the last one ends with a wait, so never between two effects
      obtain ⟨-, -, before, act, rfl, hcost⟩ := hof
      rw [← List.append_assoc, Act.lastEffect_append]
      cases act with
      | performed | observed => exact absurd hcost (by simp [Act.cost])
      | paused | asked | started => exact Act.isClear_none

namespace Engine

variable {engine : Engine}

theorem endsClear_runErrand (engine : Engine) (errand : Errand) :
    (engine.runErrand errand).EndsClear := by
  intro acts run hwalk
  obtain ⟨trials, hcourse⟩ := exists_course_iff.2 ⟨run, hwalk⟩
  exact hcourse.asks.isClear none Act.isClear_none

/-- A task does what a run over its action alone does. -/
theorem exists_walk_of_runJob {job : Job} {acts : List Act} {outcome : Outcome}
    (hwalk : Script.Walk (engine.runJob job) acts outcome) :
    ∃ run, Script.Walk (engine.runErrand job.errand) acts run := by
  obtain ⟨⟨kind, condition, delay, detached, onSuccess, onError⟩, context, depth⟩ := job
  cases hgivenUp : Action.isGivenUp ⟨kind, condition, delay, false, onSuccess, onError⟩ outcome with
  | true => exact ⟨_, (ListWalk.givenUp rfl hgivenUp hwalk).walk⟩
  | false =>
      have hlist := (ListWalk.awaited rfl hgivenUp hwalk .nil).walk
      rw [List.append_nil] at hlist
      exact ⟨_, hlist⟩

theorem endsClear_runJob (engine : Engine) (job : Job) : (engine.runJob job).EndsClear := by
  intro acts outcome hwalk
  obtain ⟨run, hrun⟩ := exists_walk_of_runJob hwalk
  exact endsClear_runErrand engine job.errand acts run hrun

end Engine

namespace Crowd

variable {σ : Type} {setting : Setting σ}

/-- The refreshes that a move leads to, with those who ask for them. -/
def refreshings (setting : Setting σ) (crowd : Crowd σ) : Move → List (Actor × Refreshing σ)
  | .enter errand =>
      (Machine.refreshings setting (setting.engine.runErrand errand) none crowd.machine).map
        (Prod.mk (.thread crowd.threads.length))
  | .goOn i =>
      match (crowd.threads[i]?).map Thread.state with
      | some (.waiting deadline script) =>
          if deadline ≤ crowd.machine.clock then
            (Machine.refreshings setting script none crowd.machine).map (Prod.mk (.thread i))
          else []
      | _ => []
  | .turn task =>
      let machine := crowd.machine.pop task
      match (machine.tasks[task]?).map Task.state with
      | some (.ready script) =>
          (Machine.refreshings setting script none machine).map (Prod.mk (.task task))
      | _ => []
  | _ => []

/-- What a move is for the refreshes: nothing, or a turn of one actor. -/
inductive Passes (setting : Setting σ) (crowd : Crowd σ) (move : Move) : Prop where
  | quiet :
      crowd.refreshings setting move = [] →
      (∀ actor, (crowd.step setting move).actsOf actor = crowd.actsOf actor) →
      (∀ called, setting.host.Logs called →
        called (crowd.step setting move).machine.world.host = called crowd.machine.world.host) →
      Passes setting crowd move
  | turn {α : Type} {actor : Actor} {root script : Script α} {machine : Machine σ} :
      root.EndsClear → Script.Leads root (crowd.actsOf actor) script →
      machine.world = crowd.machine.world →
      crowd.refreshings setting move =
        (Machine.refreshings setting script none machine).map (Prod.mk actor) →
      (∀ other, (crowd.step setting move).actsOf other = crowd.actsOf other ++
        if actor = other then Machine.acts setting script machine else []) →
      (∀ called, setting.host.Logs called →
        called (crowd.step setting move).machine.world.host =
          called (Machine.advance setting script machine).2.world.host) →
      Passes setting crowd move

theorem passes_goOn {crowd : Crowd σ} (hfollow : crowd.AllFollow setting) (i : Nat) :
    crowd.Passes setting (.goOn i) := by
  by_cases hready : ∃ deadline script, deadline ≤ crowd.machine.clock ∧
      (crowd.threads[i]?).map Thread.state = some (.waiting deadline script)
  · obtain ⟨deadline, script, hdeadline, hstate⟩ := hready
    obtain ⟨own, hown, hwaiting⟩ := Option.map_eq_some_iff.1 hstate
    have hactor := hfollow (.thread i)
    rw [Follows, hown, Engine.ThreadFollows, hwaiting] at hactor
    have hstep : crowd.step setting (.goOn i) = crowd.afterTurn (.thread i)
        (Machine.acts setting script crowd.machine)
        (Machine.advance setting script crowd.machine).2
        (crowd.threads.modify i fun thread => { thread with
          state := .afterTurn crowd.machine.clock
            (Machine.advance setting script crowd.machine).1 }) := by
      simp only [step, hstate, if_pos hdeadline]
    refine .turn (setting.engine.endsClear_runErrand own.errand) hactor rfl ?_ ?_ ?_
    · simp only [refreshings, hstate, if_pos hdeadline]
    · rw [hstep]
      exact fun other => actsOf_afterTurn ..
    · rw [hstep]
      exact fun called hlogs => rfl
  · have hsame : crowd.step setting (.goOn i) = crowd := by
      rw [step]
      split
      · next deadline script hstate =>
          exact if_neg fun hdeadline => hready ⟨deadline, script, hdeadline, hstate⟩
      · rfl
    have hnone : crowd.refreshings setting (.goOn i) = [] := by
      rw [refreshings]
      split
      · next deadline script hstate =>
          exact if_neg fun hdeadline => hready ⟨deadline, script, hdeadline, hstate⟩
      · rfl
    exact .quiet hnone (fun _ => by rw [hsame]) fun _ _ => by rw [hsame]

theorem passes_turn {crowd : Crowd σ} (hfollow : crowd.AllFollow setting) (task : TaskId) :
    crowd.Passes setting (.turn task) := by
  by_cases hready : ∃ script,
      ((crowd.machine.pop task).tasks[task]?).map Task.state = some (.ready script)
  · obtain ⟨script, hready⟩ := hready
    obtain ⟨own, hown, hstate⟩ := Option.map_eq_some_iff.1 hready
    have hactor : setting.engine.TaskFollows (crowd.actsOf (.task task))
        (crowd.machine.pop task).tasks[task]? := hfollow (.task task)
    rw [hown, Engine.TaskFollows, hstate] at hactor
    have hstep : crowd.step setting (.turn task) = crowd.afterTurn (.task task)
        (Machine.acts setting script (crowd.machine.pop task))
        ((crowd.machine.pop task).runTask setting task) crowd.threads := by
      simp only [step, hready]
    have hworld : (crowd.machine.pop task).world = crowd.machine.world := rfl
    refine .turn (setting.engine.endsClear_runJob own.job) hactor hworld ?_ ?_ ?_
    · simp only [refreshings, hready]
    · rw [hstep]
      exact fun other => actsOf_afterTurn ..
    · rw [hstep, afterTurn, Machine.runTask_of_ready setting (crowd.machine.pop task) hready]
      exact fun called hlogs => hlogs.rest _
  · have hsame : crowd.step setting (.turn task) =
        { crowd with machine := crowd.machine.pop task } := by
      rw [step]
      split
      · next script hscript => exact absurd ⟨script, hscript⟩ hready
      · rfl
    have hnone : crowd.refreshings setting (.turn task) = [] := by
      rw [refreshings]
      split
      · next script hscript => exact absurd ⟨script, hscript⟩ hready
      · rfl
    refine .quiet hnone (fun _ => ?_) fun _ _ => ?_
    · rw [hsame]
      rfl
    · rw [hsame]
      rfl

/-- Every move gives a turn to one actor at most. -/
theorem passes_step {crowd : Crowd σ} (hfollow : crowd.AllFollow setting) (move : Move) :
    crowd.Passes setting move := by
  cases move with
  | enter errand =>
      have hnew := hfollow (.thread crowd.threads.length)
      rw [Follows, List.getElem?_eq_none (Nat.le_refl _)] at hnew
      have hnone : crowd.actsOf (.thread crowd.threads.length) = [] := hnew
      refine .turn (setting.engine.endsClear_runErrand errand) ?_ rfl rfl
        (fun other => actsOf_afterTurn ..) fun called hlogs => rfl
      rw [hnone]
      exact .refl
  | goOn i => exact passes_goOn hfollow i
  | turn task => exact passes_turn hfollow task
  | tick ms => exact .quiet rfl (fun _ => rfl) fun _ _ => rfl
  | rest => exact .quiet rfl (fun _ => rfl) fun called hlogs => hlogs.rest _
  | abort task =>
      refine .quiet rfl (fun _ => rfl) fun called hlogs => ?_
      simp only [step, Machine.abort]
      split <;> rfl
  | write ops => exact .quiet rfl (actsOf_written setting crowd ops) fun _ _ => rfl

/-- The crowd among other listeners. -/
def relisten (crowd : Crowd σ) (listeners : Listeners Listener) : Crowd σ :=
  { crowd with machine := { crowd.machine with world := { crowd.machine.world with listeners } } }

/-- The errand that an actor runs. -/
def errand? (crowd : Crowd σ) : Actor → Option Errand
  | .thread i => (crowd.threads[i]?).map Thread.errand
  | .task t => (crowd.machine.tasks[t]?).map fun task => task.job.errand

/-- An actor has come to its end. -/
def IsOver (crowd : Crowd σ) : Actor → Prop
  | .thread i => ∃ run, (crowd.threads[i]?).map Thread.state = some (.ended run)
  | .task t => ∃ outcome, (crowd.machine.tasks[t]?).map Task.state = some (.finished outcome)

/-- The acts of an actor begin a walk through its errand, and are a whole one if the actor has
come to its end. -/
theorem AllFollow.exists_walk {crowd : Crowd σ} (hfollow : crowd.AllFollow setting)
    {actor : Actor} {errand : Errand} (herrand : crowd.errand? actor = some errand) :
    ∃ later run, Script.Walk (setting.engine.runErrand errand) (crowd.actsOf actor ++ later) run ∧
      (crowd.IsOver actor → later = []) := by
  have hactor := hfollow actor
  cases actor with
  | thread i =>
      obtain ⟨⟨_, state⟩, hown, rfl⟩ := Option.map_eq_some_iff.1 herrand
      rw [Follows, hown] at hactor
      obtain ⟨later, run, hwalk, hended⟩ := ThreadState.Follows.exists_walk hactor
      refine ⟨later, run, hwalk, ?_⟩
      rintro ⟨result, hresult⟩
      rw [hown] at hresult
      exact (hended result (Option.some.inj hresult)).1
  | task t =>
      obtain ⟨⟨job, state⟩, hown, rfl⟩ := Option.map_eq_some_iff.1 herrand
      rw [Follows, hown] at hactor
      obtain ⟨later, outcome, hwalk, hfinished⟩ := TaskState.Follows.exists_walk hactor
      obtain ⟨run, hrun⟩ := Engine.exists_walk_of_runJob hwalk
      refine ⟨later, run, hrun, ?_⟩
      rintro ⟨result, hresult⟩
      rw [hown] at hresult
      exact (hfinished result (Option.some.inj hresult)).1

theorem AllFollow.actsOf_eq_nil {crowd : Crowd σ} (hfollow : crowd.AllFollow setting)
    {actor : Actor} (hnone : crowd.errand? actor = none) : crowd.actsOf actor = [] := by
  have hactor := hfollow actor
  cases actor with
  | thread i | task t =>
      rw [Follows, Option.map_eq_none_iff.1 hnone] at hactor
      exact hactor

end Crowd

/-- A crowd on a page whose listeners come and go, with all refreshes that were asked for, in
order. -/
structure Scene (σ : Type) where
  crowd : Crowd σ
  refreshings : List (Actor × Refreshing σ) := []

namespace Scene

variable {σ : Type} {setting : Setting σ}

def fresh (world : World σ) : Scene σ where
  crowd := .fresh world

/-- The refreshes that an actor asked for, in order. -/
def refreshingsOf (scene : Scene σ) (actor : Actor) : List (Refreshing σ) :=
  scene.refreshings.filterMap fun entry => if entry.1 = actor then some entry.2 else none

/-- The scene behind one happening. -/
def step (setting : Setting σ) (scene : Scene σ) : Happening → Scene σ
  | .move move =>
      { crowd := scene.crowd.step setting move
        refreshings := scene.refreshings ++ scene.crowd.refreshings setting move }
  | .relisten listeners => { scene with crowd := scene.crowd.relisten listeners }

/-- The scene behind some happenings. -/
def play (setting : Setting σ) (scene : Scene σ) (happenings : List Happening) : Scene σ :=
  happenings.foldl (step setting) scene

/-- What is true of the refreshes of a scene at every moment. -/
structure Kept (setting : Setting σ) (world : World σ) (scene : Scene σ) : Prop where
  follow : scene.crowd.AllFollow setting
  isClear : ∀ actor, Act.IsClear (Act.lastEffect none (scene.crowd.actsOf actor))
  reloads : ∀ actor, (scene.refreshingsOf actor).map Refreshing.reload =
    Act.reloads none (scene.crowd.actsOf actor)
  called : ∀ called, setting.host.Logs called →
    called scene.crowd.machine.world.host =
      called world.host ++ scene.refreshings.filterMap fun entry => entry.2.listener?
  page : ∀ entry ∈ scene.refreshings, ∀ page op, entry.2.last = some (page, .store op) →
    entry.2.world.page = page.apply op

theorem kept_fresh (world : World σ) : Kept setting world (fresh world) where
  follow := fun actor => by cases actor <;> rfl
  isClear := fun _ => Act.isClear_none
  reloads := fun _ => rfl
  called := fun _ _ => (List.append_nil _).symm
  page := fun _ hmem => absurd hmem List.not_mem_nil

theorem refreshingsOf_append (scene : Scene σ) (crowd : Crowd σ) (actor other : Actor)
    (refreshings : List (Refreshing σ)) :
    refreshingsOf ⟨crowd, scene.refreshings ++ refreshings.map (Prod.mk actor)⟩ other =
      scene.refreshingsOf other ++ if actor = other then refreshings else [] := by
  rw [refreshingsOf, List.filterMap_append, List.filterMap_map]
  congr 1
  split
  · next heq => simp [heq]
  · next hne => simp [hne]

/-- One move keeps what is true of the refreshes. -/
theorem Kept.moved {world : World σ} {scene : Scene σ} (hkept : scene.Kept setting world)
    (move : Move) : (scene.step setting (.move move)).Kept setting world := by
  have hfollow := hkept.follow.change (Crowd.change_step setting scene.crowd move)
  cases Crowd.passes_step hkept.follow move with
  | quiet hnone hacts hcalled =>
      have hsame : scene.refreshings ++ scene.crowd.refreshings setting move =
          scene.refreshings := by rw [hnone, List.append_nil]
      rw [step, hsame]
      refine ⟨hfollow, fun actor => ?_, fun actor => ?_, fun called hlogs => ?_, hkept.page⟩
      · rw [hacts]
        exact hkept.isClear actor
      · rw [hacts]
        exact hkept.reloads actor
      · rw [hcalled called hlogs]
        exact hkept.called called hlogs
  | @turn _ actor root script machine hclear hleads hworld hrefreshings hacts hcalled =>
      rw [step, hrefreshings]
      refine ⟨hfollow, fun other => ?_, fun other => ?_, fun called hlogs => ?_, ?_⟩
      · rw [hacts]
        split
        · next heq =>
            subst heq
            exact hclear.of_progress hleads (Machine.of_advance setting script machine)
        · rw [List.append_nil]
          exact hkept.isClear other
      · -- what was done in earlier turns has no say in the refreshes of this one
        have hown := Machine.map_reload_refreshings setting script none machine
        rw [refreshingsOf_append, hacts, List.map_append, hkept.reloads, Act.reloads_append,
          Act.reloads_of_isClear (hkept.isClear other)]
        congr 1
        split
        · exact hown
        · rfl
      · rw [hcalled called hlogs, Machine.called_advance hlogs script none machine, hworld,
          hkept.called called hlogs, List.filterMap_append, List.filterMap_map, List.append_assoc]
        rfl
      · intro entry hentry page op hlast
        rcases List.mem_append.1 hentry with hold | hnew
        · exact hkept.page entry hold page op hlast
        · obtain ⟨refreshing, hrefreshing, rfl⟩ := List.mem_map.1 hnew
          exact Machine.page_of_mem_refreshings machine.isBehind_none hrefreshing hlast

theorem Kept.relistened {world : World σ} {scene : Scene σ} (hkept : scene.Kept setting world)
    (listeners : Listeners Listener) :
    (scene.step setting (.relisten listeners)).Kept setting world where
  follow := fun actor => by
    have hactor := hkept.follow actor
    cases actor with
    | thread i | task t => exact hactor
  isClear := hkept.isClear
  reloads := hkept.reloads
  called := hkept.called
  page := hkept.page

theorem Kept.play {world : World σ} {scene : Scene σ} (hkept : scene.Kept setting world)
    (happenings : List Happening) : (scene.play setting happenings).Kept setting world := by
  induction happenings generalizing scene with
  | nil => exact hkept
  | cons happening rest ih =>
      cases happening with
      | move move => exact ih (hkept.moved move)
      | relisten listeners => exact ih (hkept.relistened listeners)

end Scene

end LivePage
