import LivePage.Proofs.Run.Shedding
import LivePage.Proofs.Schedule.Foreground
import LivePage.Proofs.Schedule.History

/-!
# Detached actions under every schedule

Detached actions do not show in the run that starts them.  Whatever their tasks do,
and however they are scheduled, the run does and reports what it does and reports
without them; and for each detached action that it comes to it reports one task,
which runs that action in the context of its place.
-/

namespace LivePage

/-- Surroundings whose replies are those that a function of the request gives. -/
def Host.RepliesBy (host : Host σ) (reply : HttpRequest → HttpReply) : Prop :=
  ∀ page request state, (host.answer page request state).1.reply = reply request

/-- Of two choices from a list the one that is made less often is a part of the
other. -/
theorem filterMap_sublist {α β : Type} {f g : α → Option β}
    (hchosen : ∀ a b, f a = some b → g a = some b) (items : List α) :
    (items.filterMap f).Sublist (items.filterMap g) := by
  induction items with
  | nil => exact .slnil
  | cons a rest ih =>
      cases hf : f a with
      | none =>
          rw [List.filterMap_cons_none hf]
          cases hg : g a with
          | none => rwa [List.filterMap_cons_none hg]
          | some b =>
              rw [List.filterMap_cons_some hg]
              exact ih.cons b
      | some b =>
          rw [List.filterMap_cons_some hf, List.filterMap_cons_some (hchosen a b hf)]
          exact ih.cons_cons b

/-- The errand without the detached actions of its list. -/
def Errand.awaited (errand : Errand) : Errand :=
  { errand with actions := Action.awaited errand.actions }

namespace Crowd

variable {σ : Type} {setting : Setting σ} {world : World σ} {crowd : Crowd σ}

/-- The run of an errand at a place has ended. -/
def Ended (crowd : Crowd σ) (i : Nat) (errand : Errand) (run : Run) : Prop :=
  crowd.threads[i]? = some ⟨errand, .ended run⟩

/-- On every page a run of an errand can come to an end. -/
theorem exists_ended (setting : Setting σ) (world : World σ) (errand : Errand) :
    ∃ moves i run, ((fresh world).play setting moves).Ended i errand run := by
  have htidy : (fresh world).machine.Tidy := Machine.tidy_of_tasks_eq_nil rfl
  obtain ⟨moves, -, hended⟩ := exists_moves_of_run setting htidy errand
  exact ⟨_, _, _, hended⟩

/-- What an actor is answered is what the surroundings reply. -/
theorem Recorded.honest {reply : HttpRequest → HttpReply}
    (hrecorded : crowd.Recorded setting world) (hreply : setting.host.RepliesBy reply)
    (actor : Actor) : Act.Honest reply (crowd.actsOf actor) := by
  intro message got hmem
  obtain ⟨page, state, rfl⟩ :=
    hrecorded.answered actor message got (mem_history_of_mem_actsOf hmem)
  exact hreply page message state

/-- A run that has ended has gone a whole way through its list. -/
theorem Recorded.walk {i : Nat} {errand : Errand} {run : Run}
    (hrecorded : crowd.Recorded setting world)
    (hended : crowd.Ended i errand run) :
    Script.Walk (setting.engine.runErrand errand) (crowd.actsOf (.thread i)) run := by
  have hfollows := hrecorded.follows (.thread i)
  rw [Ended] at hended
  rw [Follows, hended] at hfollows
  exact hfollows

/-- No two tasks have one name. -/
theorem Recorded.nodup_started (hrecorded : crowd.Recorded setting world) :
    ((crowd.history.filterMap Deed.started?).map Prod.snd).Nodup := by
  rw [hrecorded.started, List.zipIdx_map_snd]
  exact List.nodup_range'

/-- What an actor starts at a depth is a part of all that is started. -/
theorem startedAt_sublist (crowd : Crowd σ) (actor : Actor) (depth : Nat) :
    ((crowd.actsOf actor).filterMap (Act.startedAt? depth)).Sublist
      (crowd.history.filterMap Deed.started?) := by
  rw [actsOf, List.filterMap_filterMap]
  apply filterMap_sublist
  intro deed start hstart
  obtain ⟨act, hact, hat⟩ := Option.bind_eq_some_iff.1 hstart
  cases deed with
  | acted other told =>
      rw [Deed.actOf?] at hact
      split at hact
      · obtain rfl := Option.some.inj hact
        cases told with
        | started job task =>
            rw [Act.startedAt?] at hat
            split at hat
            · exact hat
            · cases hat
        | _ => cases hat
      · cases hact
  | wrote ops => cases hact

/-- The tasks that a run reports have different names, and they run the jobs of the
detached actions that it came to. -/
theorem Recorded.jobs_of_detached (hrecorded : crowd.Recorded setting world) {actor : Actor}
    {depth : Nat} {jobs : List Job} {tasks : List TaskId}
    (hstarted : (crowd.actsOf actor).filterMap (Act.startedAt? depth) = jobs.zip tasks)
    (hlength : jobs.length = tasks.length) :
    tasks.Nodup ∧
      jobs.map some = tasks.map fun task => (crowd.machine.tasks[task]?).map Task.job := by
  constructor
  · have hnodup := hrecorded.nodup_started.sublist
      ((startedAt_sublist crowd actor depth).map Prod.snd)
    rwa [hstarted, List.map_snd_zip (Nat.le_of_eq hlength.symm)] at hnodup
  · rw [← List.forall₂_eq_eq_eq, List.forall₂_map_left_iff, List.forall₂_map_right_iff,
      List.forall₂_iff_zip]
    refine ⟨hlength, fun {job task} hmem => ?_⟩
    have hhistory := (startedAt_sublist crowd actor depth).subset (hstarted ▸ hmem)
    rw [hrecorded.started] at hhistory
    rw [← List.getElem?_map]
    exact (List.mem_zipIdx_iff_getElem?.1 hhistory).symm

/-- A task goes its way through the action of its job, in the context of the job. -/
theorem Recorded.exists_walk_of_task (hrecorded : crowd.Recorded setting world) {task : TaskId}
    {own : Task} (hown : crowd.machine.tasks[task]? = some own) :
    ∃ later outcome, Script.Walk
        (setting.engine.runAction own.job.depth own.job.context own.job.action)
        (crowd.actsOf (.task task) ++ later) outcome ∧
      ∀ result, own.state = .finished result → later = [] ∧ outcome = result := by
  have hfollows := hrecorded.follows (.task task)
  rw [Follows, hown] at hfollows
  exact TaskState.Follows.exists_walk hfollows

/-- Detached actions do not show in their run.  A run over a list without its
detached actions can come to an end on every page, and whenever it does, in any
crowd and under any schedule, it has done and reports what any run over the whole
list has done and reports.  The whole run reports one task for every detached
action that it comes to, in their order, which has the job to run that action in the
context that the outcomes before it leave.  What the task has done by then begins a way
through the action in this context, and is a whole one, to the same outcome, if the task has
finished. -/
theorem detached_invisible (setting : Setting σ) {reply : HttpRequest → HttpReply}
    (hreply : setting.host.RepliesBy reply) {world : World σ} {moves : List Move} {i : Nat}
    {errand : Errand} {run : Run}
    (hrun : ((fresh world).play setting moves).Ended i errand run) :
    let crowd := (fresh world).play setting moves
    (∀ other : World σ, ∃ others j shed,
      ((fresh other).play setting others).Ended j errand.awaited shed) ∧
      (∀ (other : World σ) (others : List Move) (j : Nat) (shed : Run),
        ((fresh other).play setting others).Ended j errand.awaited shed →
          shed.success = run.success ∧ shed.outcomes = run.outcomes ∧ shed.detached = [] ∧
            (((fresh other).play setting others).actsOf (.thread j)).map Act.unnamed =
              (Act.shed errand.depth (crowd.actsOf (.thread i))).map Act.unnamed) ∧
      run.detached.Nodup ∧
      ∃ reached, run.Reaches errand.actions reached ∧
        let jobs := Engine.detachedJobs errand.depth errand.context reached run.outcomes
        jobs.map Job.action = reached.filter (·.detached) ∧
        (jobs.map some = run.detached.map fun task => (crowd.machine.tasks[task]?).map Task.job) ∧
        ∀ task ∈ run.detached, ∃ own, crowd.machine.tasks[task]? = some own ∧
          ∃ later outcome, Script.Walk
              (setting.engine.runAction own.job.depth own.job.context own.job.action)
              (crowd.actsOf (.task task) ++ later) outcome ∧
            ∀ result, own.state = .finished result → later = [] ∧ outcome = result := by
  intro crowd
  have hone : crowd.Recorded setting world := recorded_play setting world moves
  obtain ⟨reached, hreaches, hstarted, hlength⟩ := Engine.exists_reached (hone.walk hrun)
  obtain ⟨hnodup, hjobs⟩ := hone.jobs_of_detached hstarted hlength
  refine ⟨fun other => exists_ended setting other errand.awaited, ?_, hnodup, reached, hreaches,
    Engine.map_action_detachedJobs _ _ _ _, hjobs, fun task htask => ?_⟩
  · intro other others j shed hshed
    have htwo := recorded_play setting other others
    obtain ⟨hacts, hsame⟩ := Engine.sameReport_of_walk_awaited (hone.walk hrun) (htwo.walk hshed)
      (hone.honest hreply _) (htwo.honest hreply _)
    have hnone : shed.detached = [] := List.eq_nil_of_length_eq_zero hsame.detached.symm
    exact ⟨hsame.success.symm, hsame.outcomes.symm, hnone, hacts.symm⟩
  · have hjob : (crowd.machine.tasks[task]?).map Task.job ∈
        (Engine.detachedJobs errand.depth errand.context reached run.outcomes).map some :=
      hjobs ▸ List.mem_map_of_mem htask
    obtain ⟨job, -, hsome⟩ := List.mem_map.1 hjob
    obtain ⟨own, hown, -⟩ := Option.map_eq_some_iff.1 hsome.symm
    exact ⟨own, hown, hone.exists_walk_of_task hown⟩

/-- An action that toggles a component after three milliseconds. -/
def lateToggle : Action where
  kind := .setVisibility "b" .toggle
  detached := true
  delay := some 3

/-- A list with three detached actions, of which a run comes to two before it is given up. -/
def givenUpErrand : Errand where
  actions := [
    { kind := .unknown, detached := true },
    { kind := .callApi default .get none none },
    lateToggle,
    { kind := .unknown },
    { kind := .closeModal "m", detached := true }]

/-- The run of the list and its two tasks, of which the first fails at once. -/
def givenUpMoves : List Move :=
  [.enter givenUpErrand, .turn 0, .tick 5, .goOn 0, .turn 1, .tick 3, .turn 1]

/-- The run reports the two tasks, and what it would report without them; the second one goes
its way in the context behind the answer. -/
theorem detached_invisible_of_givenUp :
    let world : World Nat := { page := default, host := 0 }
    let one := (fresh world).play .counting givenUpMoves
    let two := (fresh world).play .counting [.enter givenUpErrand.awaited, .tick 5, .goOn 0]
    let outcomes := [.success (some default), .failure .unknownKind]
    one.Ended 0 givenUpErrand { success := false, outcomes, detached := [0, 1] } ∧
      two.Ended 0 givenUpErrand.awaited { success := false, outcomes, detached := [] } ∧
      (two.actsOf (.thread 0)).map Act.unnamed =
        (Act.shed 0 (one.actsOf (.thread 0))).map Act.unnamed ∧
      one.actsOf (.task 0) = [] ∧
      one.actsOf (.task 1) =
        [.paused 3, .performed (.store (.edit "b" (.visibility .toggle)))] ∧
      Script.Walk (Engine.runAction {} 0 (Context.answered {} default) lateToggle)
        (one.actsOf (.task 1)) (.success none) := by
  intro world one two outcomes
  have hreply : (Setting.counting).host.RepliesBy fun _ => .ok default := fun _ _ _ => rfl
  have hrun : one.Ended 0 givenUpErrand { success := false, outcomes, detached := [0, 1] } := rfl
  have hshed : two.Ended 0 givenUpErrand.awaited { success := false, outcomes, detached := [] } :=
    rfl
  have hown : one.machine.tasks[1]? =
      some ⟨⟨lateToggle, Context.answered {} default, 0⟩, .finished (.success none)⟩ := rfl
  have hfirst : one.actsOf (.task 0) = [] := rfl
  have hsecond : one.actsOf (.task 1) =
      [.paused 3, .performed (.store (.edit "b" (.visibility .toggle)))] := rfl
  obtain ⟨-, hsame, -, -, -, -, -, htasks⟩ := detached_invisible .counting hreply hrun
  obtain ⟨-, -, -, hacts⟩ := hsame world _ 0 _ hshed
  obtain ⟨own, hsome, later, outcome, hwalk, hfinished⟩ := htasks 1 (.tail _ (.head _))
  obtain rfl := Option.some.inj (hown.symm.trans hsome)
  obtain ⟨rfl, rfl⟩ := hfinished _ rfl
  rw [List.append_nil] at hwalk
  exact ⟨hrun, hshed, hacts, hfirst, hsecond, hwalk⟩

end Crowd

end LivePage
