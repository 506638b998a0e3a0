import Mathlib.Data.List.Forall2
import LivePage.Proofs.Run.Starts

/-!
# Pruning

The limit for nesting cuts branches off.  A branch that stands too deep does
nothing but start tasks that do nothing, so a tree runs as it would, under any
larger limit, with a single action without effect in place of each such branch.
-/

namespace LivePage

namespace Action

/-- An action without effect. -/
def noop : Action where
  kind := .runActions none

mutual

/-- The action with its branches pruned behind some levels of nesting. -/
def prune (levels : Nat) : Action → Action
  | ⟨kind, condition, delay, detached, onSuccess, onError⟩ =>
      ⟨kind, condition, delay, detached, pruneBranch levels onSuccess, pruneBranch levels onError⟩

/-- The branch of an action that may nest some levels. -/
def pruneBranch (levels : Nat) : Option (List Action) → Option (List Action)
  | none => none
  | some [] => some []
  | some (action :: rest) =>
      match levels with
      | 0 => some [noop]
      | levels + 1 => some (prune levels action :: pruneList levels rest)

def pruneList (levels : Nat) : List Action → List Action
  | [] => []
  | action :: rest => prune levels action :: pruneList levels rest

end

mutual

/-- How many levels of branches an action has. -/
def nesting : Action → Nat
  | ⟨_, _, _, _, onSuccess, onError⟩ => max (branchNesting onSuccess) (branchNesting onError)

def branchNesting : Option (List Action) → Nat
  | none => 0
  | some [] => 0
  | some (action :: rest) => 1 + max (nesting action) (listNesting rest)

def listNesting : List Action → Nat
  | [] => 0
  | action :: rest => max (nesting action) (listNesting rest)

end

mutual

/-- A tree that nests no deeper is not pruned at all. -/
theorem prune_eq_self (levels : Nat) (action : Action) (hnesting : action.nesting ≤ levels) :
    action.prune levels = action := by
  match action with
  | ⟨kind, condition, delay, detached, onSuccess, onError⟩ =>
    rw [nesting] at hnesting
    rw [prune, pruneBranch_eq_self levels onSuccess (by omega),
      pruneBranch_eq_self levels onError (by omega)]
termination_by structural action

theorem pruneBranch_eq_self (levels : Nat) (actions : Option (List Action))
    (hnesting : branchNesting actions ≤ levels) : pruneBranch levels actions = actions := by
  match actions with
  | none => rfl
  | some [] => rfl
  | some (action :: rest) =>
      rw [branchNesting] at hnesting
      match levels with
      | 0 => omega
      | levels + 1 =>
          rw [pruneBranch, prune_eq_self levels action (by omega),
            pruneList_eq_self levels rest (by omega)]
termination_by structural actions

theorem pruneList_eq_self (levels : Nat) (actions : List Action)
    (hnesting : listNesting actions ≤ levels) : pruneList levels actions = actions := by
  match actions with
  | [] => rfl
  | action :: rest =>
      rw [listNesting] at hnesting
      rw [pruneList, prune_eq_self levels action (by omega),
        pruneList_eq_self levels rest (by omega)]
termination_by structural actions

end

@[simp]
theorem kind_prune (levels : Nat) (action : Action) : (action.prune levels).kind = action.kind := by
  cases action
  rfl

@[simp]
theorem condition_prune (levels : Nat) (action : Action) :
    (action.prune levels).condition = action.condition := by
  cases action
  rfl

@[simp]
theorem delay_prune (levels : Nat) (action : Action) :
    (action.prune levels).delay = action.delay := by
  cases action
  rfl

@[simp]
theorem detached_prune (levels : Nat) (action : Action) :
    (action.prune levels).detached = action.detached := by
  cases action
  rfl

/-- A branch that handles errors still does when it is pruned. -/
theorem isGivenUp_prune (levels : Nat) (action : Action) (outcome : Outcome) :
    (action.prune levels).isGivenUp outcome = action.isGivenUp outcome := by
  have hempty (actions : Option (List Action)) :
      (branch (pruneBranch levels actions)).isEmpty = (branch actions).isEmpty := by
    match actions with
    | none => rfl
    | some [] => rfl
    | some (action :: rest) => cases levels <;> rfl
  obtain ⟨kind, condition, delay, detached, onSuccess, onError⟩ := action
  rw [isGivenUp, isGivenUp, handlesErrors, handlesErrors, prune, hempty]

end Action

/-- The job with its branches pruned behind a nesting depth. -/
def Job.prune (limit : Nat) (job : Job) : Job :=
  { job with action := job.action.prune (limit - job.depth) }

/-- The engine with another limit. -/
def Engine.withLimit (engine : Engine) (limit : Nat) : Engine :=
  { engine with maxDepth := limit }

namespace Script

/-- A script beside its pruned form: it does the same, with pruned jobs, and some
jobs more that stand too deep.  The tasks that both start are paired, the most
recent ones first, and the results are related with the pairs in view. -/
inductive Prunes (limit : Nat) (r : List (TaskId × TaskId) → α → β → Prop) :
    List (TaskId × TaskId) → Script α → Script β → Prop where
  | done {pairs : List (TaskId × TaskId)} {a : α} {b : β} :
      r pairs a b → Prunes limit r pairs (.done a) (.done b)
  | perform {pairs : List (TaskId × TaskId)} {effect : Effect} {next : Script α}
      {other : Script β} :
      Prunes limit r pairs next other →
      Prunes limit r pairs (.perform effect next) (.perform effect other)
  | observe {pairs : List (TaskId × TaskId)} {next : PageState → Script α}
      {other : PageState → Script β} :
      (∀ page, Prunes limit r pairs (next page) (other page)) →
      Prunes limit r pairs (.observe next) (.observe other)
  | pause {pairs : List (TaskId × TaskId)} {ms : Nat} {next : Script α} {other : Script β} :
      Prunes limit r pairs next other →
      Prunes limit r pairs (.pause ms next) (.pause ms other)
  | request {pairs : List (TaskId × TaskId)} {message : HttpRequest}
      {next : HttpReply → Script α} {other : HttpReply → Script β} :
      (∀ reply, Prunes limit r pairs (next reply) (other reply)) →
      Prunes limit r pairs (.request message next) (.request message other)
  | start {pairs : List (TaskId × TaskId)} {job : Job} {next : TaskId → Script α}
      {other : TaskId → Script β} :
      job.depth ≤ limit →
      (∀ task twin, Prunes limit r ((task, twin) :: pairs) (next task) (other twin)) →
      Prunes limit r pairs (.start job next) (.start (job.prune limit) other)
  | tooDeep {pairs : List (TaskId × TaskId)} {job : Job} {next : TaskId → Script α}
      {other : Script β} :
      limit < job.depth → (∀ task, Prunes limit r pairs (next task) other) →
      Prunes limit r pairs (.start job next) other

theorem Prunes.bind {limit : Nat} {r : List (TaskId × TaskId) → α → β → Prop}
    {q : List (TaskId × TaskId) → γ → δ → Prop} {pairs : List (TaskId × TaskId)}
    {s : Script α} {other : Script β} {f : α → Script γ} {g : β → Script δ}
    (hprunes : Prunes limit r pairs s other)
    (hnext : ∀ more a b, pairs ⊆ more → r more a b → Prunes limit q more (f a) (g b)) :
    Prunes limit q pairs (s.bind f) (other.bind g) := by
  induction hprunes with
  | done hresult => exact hnext _ _ _ (List.Subset.refl _) hresult
  | perform _ ih => exact .perform (ih hnext)
  | observe _ ih => exact .observe fun page => ih page hnext
  | pause _ ih => exact .pause (ih hnext)
  | request _ ih => exact .request fun reply => ih reply hnext
  | start hdepth _ ih =>
      refine .start hdepth fun task twin => ih task twin fun more a b hmore => ?_
      exact hnext more a b (List.Subset.trans (List.subset_cons_self ..) hmore)
  | tooDeep hdepth _ ih => exact .tooDeep hdepth fun task => ih task hnext

/-- A script that starts nothing is its own pruned form. -/
theorem prunes_self {limit : Nat} {pairs : List (TaskId × TaskId)} {s : Script α}
    (hstarts : s.Starts fun _ => False) : Prunes limit (fun _ => Eq) pairs s s := by
  induction s with
  | done a => exact .done rfl
  | perform effect next ih => exact .perform (ih (hstarts.of_leads (.perform .refl)).2)
  | observe next ih => exact .observe fun page => ih page (hstarts.of_leads (.observe .refl)).2
  | pause ms next ih => exact .pause (ih (hstarts.of_leads (.pause .refl)).2)
  | request message next ih =>
      exact .request fun reply => ih reply (hstarts.of_leads (.request .refl)).2
  | start job next ih =>
      have hleads : Leads (.start job next) [.started job 0] (next 0) := .start .refl
      exact ((hstarts.of_leads hleads).1 job (.head _)).elim

end Script

/-- Two runs that end alike; their tasks are paired. -/
structure Run.Twins (pairs : List (TaskId × TaskId)) (run twin : Run) : Prop where
  success : run.success = twin.success
  outcomes : run.outcomes = twin.outcomes
  detached : List.Forall₂ (fun task other => (task, other) ∈ pairs) run.detached twin.detached

namespace Engine

/-- Below the limit an action does nothing at all. -/
theorem runAction_of_tooDeep (engine : Engine) {depth : Nat} (context : Context)
    (action : Action) (hdeep : engine.maxDepth < depth) :
    engine.runAction depth context action = .done (.failure (.tooDeep engine.maxDepth)) := by
  rw [runAction_eq, attempt, if_pos hdeep]
  rfl

/-- Below the limit a list starts the tasks of its detached actions, and does
nothing else. -/
theorem prunes_runList_of_tooDeep (engine : Engine) {depth : Nat} (context : Context)
    (actions : List Action) (hdeep : engine.maxDepth < depth) (pairs : List (TaskId × TaskId)) :
    Script.Prunes engine.maxDepth (fun _ _ _ => True) pairs
      (engine.runList depth context actions) (.done ()) := by
  induction actions generalizing context with
  | nil =>
      rw [runList_nil]
      exact .done trivial
  | cons action rest ih =>
      cases hdetached : action.detached with
      | true =>
          rw [runList_detached _ _ _ _ hdetached]
          refine .tooDeep hdeep fun task => ?_
          exact (ih context).bind fun more _ _ _ _ => .done trivial
      | false =>
          rw [runList_awaited _ _ _ _ hdetached, runAction_of_tooDeep engine _ _ hdeep,
            Script.bind]
          split
          · exact .done trivial
          · exact (ih _).bind fun more _ _ _ _ => .done trivial

/-- The action in place of a branch does nothing. -/
theorem runBranch_noop (engine : Engine) (depth : Nat) (context : Context) :
    engine.runBranch depth context (some [Action.noop]) = .done () := by
  rw [runBranch, runList_awaited engine depth context [] (rfl : Action.noop.detached = false)]
  by_cases hdeep : engine.maxDepth < depth
  · rw [runAction_of_tooDeep engine context Action.noop hdeep]
    rfl
  · rw [runAction_eq, attempt, if_neg hdeep]
    rfl

theorem act_withLimit (engine : Engine) (limit : Nat) (context : Context) (kind : ActionKind) :
    (engine.withLimit limit).act context kind = engine.act context kind := by
  cases kind <;> rfl

/-- What an action does at a depth that two limits allow depends on neither, and
not on its branches. -/
theorem attempt_withLimit (engine : Engine) {depth limit levels : Nat} (context : Context)
    (action : Action) (hdepth : depth ≤ engine.maxDepth) (hlimit : engine.maxDepth ≤ limit) :
    (engine.withLimit limit).attempt depth context (action.prune levels) =
      engine.attempt depth context action := by
  have hlarger : ¬ (engine.withLimit limit).maxDepth < depth :=
    Nat.not_lt.2 (Nat.le_trans hdepth hlimit)
  rw [attempt, attempt, if_neg (Nat.not_lt.2 hdepth), if_neg hlarger, Action.condition_prune,
    Action.delay_prune, Action.kind_prune, act_withLimit]

mutual

/-- An action above the limit runs as its pruned form does under a larger one. -/
theorem prunes_runAction (engine : Engine) {limit : Nat} (hlimit : engine.maxDepth ≤ limit)
    (depth : Nat) (hdepth : depth ≤ engine.maxDepth) (context : Context) (action : Action)
    (pairs : List (TaskId × TaskId)) :
    Script.Prunes engine.maxDepth (fun _ => Eq) pairs (engine.runAction depth context action)
      ((engine.withLimit limit).runAction depth context
        (action.prune (engine.maxDepth - depth))) := by
  match action with
  | ⟨kind, condition, delay, detached, onSuccess, onError⟩ =>
    rw [runAction_eq, runAction_eq, attempt_withLimit engine context _ hdepth hlimit]
    apply (Script.prunes_self (starts_attempt _ engine depth context _)).bind
    rintro more outcome _ - rfl
    have hafter (s : Script Unit) (other : Script Unit)
        (hprunes : Script.Prunes engine.maxDepth (fun _ _ _ => True) more s other) :
        Script.Prunes engine.maxDepth (fun _ => Eq) more (s.bind fun _ => .done outcome)
          (other.bind fun _ => .done outcome) :=
      hprunes.bind fun _ _ _ _ _ => .done rfl
    apply hafter
    match outcome with
    | .success (some answer) =>
        exact prunes_runBranch engine hlimit depth hdepth (context.answered answer) onSuccess more
    | .failure (.request error) =>
        exact prunes_runBranch engine hlimit depth hdepth (context.refused error) onError more
    | .success none | .failure (.tooDeep _) | .failure .unknownKind | .failure (.aborted _) =>
        exact .done trivial
termination_by structural action

/-- A branch behind an action above the limit. -/
theorem prunes_runBranch (engine : Engine) {limit : Nat} (hlimit : engine.maxDepth ≤ limit)
    (depth : Nat) (hdepth : depth ≤ engine.maxDepth) (context : Context)
    (actions : Option (List Action)) (pairs : List (TaskId × TaskId)) :
    Script.Prunes engine.maxDepth (fun _ _ _ => True) pairs
      (engine.runBranch (depth + 1) context actions)
      ((engine.withLimit limit).runBranch (depth + 1) context
        (Action.pruneBranch (engine.maxDepth - depth) actions)) := by
  match actions with
  | none => exact .done trivial
  | some [] =>
      rw [Action.pruneBranch, runBranch, runBranch, runList_nil, runList_nil]
      exact .done trivial
  | some (action :: rest) =>
      by_cases hlast : depth = engine.maxDepth
      · -- the branch stands below the limit, and its place is taken by one action
        rw [hlast, Nat.sub_self, Action.pruneBranch, runBranch_noop, runBranch]
        have hdeep := prunes_runList_of_tooDeep engine context (action :: rest)
          (Nat.lt_succ_self engine.maxDepth) pairs
        exact hdeep.bind fun _ _ _ _ _ => .done trivial
      · have hbelow : depth + 1 ≤ engine.maxDepth := by omega
        have hlevels : engine.maxDepth - depth = engine.maxDepth - (depth + 1) + 1 := by omega
        rw [hlevels, Action.pruneBranch, runBranch, runBranch]
        have hlist :=
          prunes_runList engine hlimit (depth + 1) hbelow context (action :: rest) pairs
        exact hlist.bind fun _ _ _ _ _ => .done trivial
termination_by structural actions

theorem prunes_runList (engine : Engine) {limit : Nat} (hlimit : engine.maxDepth ≤ limit)
    (depth : Nat) (hdepth : depth ≤ engine.maxDepth) (context : Context) (actions : List Action)
    (pairs : List (TaskId × TaskId)) :
    Script.Prunes engine.maxDepth Run.Twins pairs (engine.runList depth context actions)
      ((engine.withLimit limit).runList depth context
        (Action.pruneList (engine.maxDepth - depth) actions)) := by
  match actions with
  | [] =>
      rw [Action.pruneList, runList_nil, runList_nil]
      exact .done ⟨rfl, rfl, .nil⟩
  | action :: rest =>
      have hrest := fun context => prunes_runList engine hlimit depth hdepth context rest
      rw [Action.pruneList]
      cases hdetached : action.detached with
      | true =>
          rw [runList_detached _ _ _ _ hdetached,
            runList_detached _ _ _ _ ((Action.detached_prune _ action).trans hdetached)]
          refine .start hdepth fun task twin => ?_
          refine (hrest context _).bind fun more run other hmore htwins => .done ?_
          refine ⟨htwins.success, htwins.outcomes, .cons ?_ htwins.detached⟩
          exact hmore (List.mem_cons_self ..)
      | false =>
          rw [runList_awaited _ _ _ _ hdetached,
            runList_awaited _ _ _ _ ((Action.detached_prune _ action).trans hdetached)]
          have haction := prunes_runAction engine hlimit depth hdepth context action pairs
          apply haction.bind
          rintro more outcome _ - rfl
          rw [Action.isGivenUp_prune]
          split
          · exact .done ⟨rfl, rfl, .nil⟩
          · refine (hrest _ _).bind fun more run other _ htwins => .done ?_
            exact ⟨htwins.success, congrArg (outcome :: ·) htwins.outcomes, htwins.detached⟩
termination_by structural actions

end

/-- The script of a job above the limit. -/
theorem prunes_runJob (engine : Engine) {limit : Nat} (hlimit : engine.maxDepth ≤ limit)
    {job : Job} (hdepth : job.depth ≤ engine.maxDepth) (pairs : List (TaskId × TaskId)) :
    Script.Prunes engine.maxDepth (fun _ => Eq) pairs (engine.runJob job)
      ((engine.withLimit limit).runJob (job.prune engine.maxDepth)) :=
  prunes_runAction engine hlimit job.depth hdepth job.context job.action pairs

end Engine

end LivePage
