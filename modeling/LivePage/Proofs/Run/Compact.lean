import LivePage.Proofs.Run.Starts

/-!
# Empty branches

A branch without actions is as good as no branch.  Actions are made compact by leaving
out all their empty branches; scripts are compared with each other up to a map of the
jobs that they start.  The script of a compact list is then the script of the list, but
that the jobs which it starts are compact as well.
-/

namespace LivePage

namespace Action

mutual

/-- The action without the branches that are empty, at any depth. -/
def compact : Action → Action
  | ⟨kind, condition, delay, detached, onSuccess, onError⟩ =>
      ⟨kind, condition, delay, detached, compactBranch onSuccess, compactBranch onError⟩

def compactBranch : Option (List Action) → Option (List Action)
  | none => none
  | some [] => none
  | some (action :: rest) => some (compact action :: compactList rest)

def compactList : List Action → List Action
  | [] => []
  | action :: rest => compact action :: compactList rest

end

theorem compactList_eq_map (actions : List Action) : compactList actions = actions.map compact := by
  induction actions with
  | nil => rfl
  | cons action rest ih => rw [compactList, ih, List.map_cons]

/-- A branch matters only by its actions. -/
theorem compactBranch_some (actions : List Action) :
    compactBranch (some actions) =
      if (compactList actions).isEmpty then none else some (compactList actions) := by
  cases actions <;> rfl

@[simp]
theorem detached_compact (action : Action) : action.compact.detached = action.detached := by
  cases action
  rfl

/-- An empty branch for failures handles none. -/
theorem isGivenUp_compact (action : Action) (outcome : Outcome) :
    action.compact.isGivenUp outcome = action.isGivenUp outcome := by
  have hempty (actions : Option (List Action)) :
      (branch (compactBranch actions)).isEmpty = (branch actions).isEmpty := by
    cases actions with
    | none => rfl
    | some actions => cases actions <;> rfl
  obtain ⟨kind, condition, delay, detached, onSuccess, onError⟩ := action
  rw [isGivenUp, isGivenUp, handlesErrors, handlesErrors, compact, hempty]

end Action

def Job.compact (job : Job) : Job :=
  { job with action := job.action.compact }

namespace Script

/-- The script with other jobs in place of those that it starts. -/
def mapJobs (f : Job → Job) : Script α → Script α
  | .done a => .done a
  | .perform effect next => .perform effect (next.mapJobs f)
  | .observe next => .observe fun page => (next page).mapJobs f
  | .pause ms next => .pause ms (next.mapJobs f)
  | .request message next => .request message fun reply => (next reply).mapJobs f
  | .start job next => .start (f job) fun task => (next task).mapJobs f

theorem mapJobs_bind (f : Job → Job) (s : Script α) (g : α → Script β) :
    (s.bind g).mapJobs f = (s.mapJobs f).bind fun a => (g a).mapJobs f := by
  induction s with
  | done a => rfl
  | perform effect next ih => simp [bind, mapJobs, ih]
  | observe next ih => simp [bind, mapJobs, ih]
  | pause ms next ih => simp [bind, mapJobs, ih]
  | request message next ih => simp [bind, mapJobs, ih]
  | start job next ih => simp [bind, mapJobs, ih]

/-- A script that starts nothing stays as it is. -/
theorem mapJobs_eq_self (f : Job → Job) {s : Script α} (hstarts : s.Starts fun _ => False) :
    s.mapJobs f = s := by
  induction s with
  | done a => rfl
  | perform effect next ih => rw [mapJobs, ih (hstarts.of_leads (.perform .refl)).2]
  | observe next ih =>
      rw [mapJobs]
      congr 1
      funext page
      exact ih page (hstarts.of_leads (.observe .refl)).2
  | pause ms next ih => rw [mapJobs, ih (hstarts.of_leads (.pause .refl)).2]
  | request message next ih =>
      rw [mapJobs]
      congr 1
      funext reply
      exact ih reply (hstarts.of_leads (.request .refl)).2
  | start job next ih =>
      have hleads : Leads (.start job next) [.started job 0] (next 0) := .start .refl
      exact ((hstarts.of_leads hleads).1 job (.head _)).elim

end Script

namespace Engine

/-- What an action does but for its branches does not depend on them. -/
theorem attempt_compact (engine : Engine) (depth : Nat) (context : Context) (action : Action) :
    engine.attempt depth context action.compact = engine.attempt depth context action := by
  cases action
  rfl

mutual

theorem runAction_compact (engine : Engine) (depth : Nat) (context : Context) (action : Action) :
    engine.runAction depth context action.compact =
      (engine.runAction depth context action).mapJobs Job.compact := by
  match action with
  | ⟨kind, condition, delay, detached, onSuccess, onError⟩ =>
    rw [runAction_eq, runAction_eq, attempt_compact, Script.mapJobs_bind,
      Script.mapJobs_eq_self Job.compact (starts_attempt _ engine depth context _)]
    congr 1
    funext outcome
    rw [Script.mapJobs_bind]
    congr 1
    match outcome with
    | .success (some answer) =>
        exact runBranch_compact engine (depth + 1) (context.answered answer) onSuccess
    | .failure (.request error) =>
        exact runBranch_compact engine (depth + 1) (context.refused error) onError
    | .success none | .failure (.tooDeep _) | .failure .unknownKind | .failure (.aborted _) => rfl
termination_by structural action

theorem runBranch_compact (engine : Engine) (depth : Nat) (context : Context)
    (actions : Option (List Action)) :
    engine.runBranch depth context (Action.compactBranch actions) =
      (engine.runBranch depth context actions).mapJobs Job.compact := by
  match actions with
  | none => rfl
  | some actions =>
      have hlist := runList_compact engine depth context actions
      rw [runBranch, Script.bind_eq, Script.mapJobs_bind, ← hlist]
      cases actions with
      | nil =>
          rw [Action.compactList, runList_nil]
          rfl
      | cons => rfl
termination_by structural actions

/-- The script of a compact list. -/
theorem runList_compact (engine : Engine) (depth : Nat) (context : Context)
    (actions : List Action) :
    engine.runList depth context (Action.compactList actions) =
      (engine.runList depth context actions).mapJobs Job.compact := by
  match actions with
  | [] =>
      rw [Action.compactList, runList_nil]
      rfl
  | action :: rest =>
      have hrest := fun context => runList_compact engine depth context rest
      have haction := runAction_compact engine depth context action
      rw [Action.compactList]
      cases hdetached : action.detached with
      | true =>
          rw [runList_detached _ _ _ _ hdetached,
            runList_detached _ _ _ _ ((Action.detached_compact action).trans hdetached),
            Script.mapJobs]
          congr 1
          funext task
          rw [hrest, Script.mapJobs_bind]
          rfl
      | false =>
          rw [runList_awaited _ _ _ _ hdetached,
            runList_awaited _ _ _ _ ((Action.detached_compact action).trans hdetached), haction,
            Script.mapJobs_bind]
          congr 1
          funext outcome
          rw [Action.isGivenUp_compact]
          split
          · rfl
          · rw [hrest, Script.mapJobs_bind]
            rfl
termination_by structural actions

end

/-- The script of a compact job. -/
theorem runJob_compact (engine : Engine) (job : Job) :
    engine.runJob job.compact = (engine.runJob job).mapJobs Job.compact :=
  runAction_compact engine job.depth job.context job.action

end Engine

end LivePage
