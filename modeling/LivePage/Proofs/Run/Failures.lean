import LivePage.Proofs.Run.Branches

/-!
# Failures that a run survives

What has become of a failure when the run that met it goes on.  The action that
failed declares a branch for failures.  If its request failed, that branch has
been run, and it has seen the text of the failure.  An action of an unknown kind
and one that stands too deep run no branch at all, so the branch that they
declare does nothing but keep the run going.
-/

namespace LivePage

namespace Run

/-- The run goes on behind one of its outcomes: it comes to another awaited
action, or to a good end. -/
def GoesOn (run : Run) (k : Nat) : Prop :=
  run.success = true ∨ k + 1 < run.outcomes.length

@[simp]
theorem goesOn_afterOutcome_succ (run : Run) (outcome : Outcome) (k : Nat) :
    (run.afterOutcome outcome).GoesOn (k + 1) ↔ run.GoesOn k := by
  simp [GoesOn, afterOutcome]

theorem not_goesOn_givenUp (outcome : Outcome) (k : Nat) : ¬ (givenUp outcome).GoesOn k := by
  simp [GoesOn, givenUp]

end Run

namespace Engine

/-- The part of a run that belongs to one of its outcomes: what the awaited action
at that place did, in the context that the outcomes before it leave. -/
structure Part (engine : Engine) (depth : Nat) (context : Context) (actions : List Action)
    (acts : List Act) (run : Run) (k : Nat) (action : Action) (own : List Act) (outcome : Outcome) :
    Prop where
  action_eq : (Action.awaited actions)[k]? = some action
  inside : own <:+: acts
  walk : Script.Walk (engine.runAction depth (context.afterAll (run.outcomes.take k)) action) own
    outcome
  goesOn : run.GoesOn k → action.isGivenUp outcome = false

/-- Every outcome of a run has its part in the run. -/
theorem exists_part {engine : Engine} {depth : Nat} {context : Context} {actions : List Action}
    {acts : List Act} {run : Run} {k : Nat} {outcome : Outcome}
    (hwalk : Script.Walk (engine.runList depth context actions) acts run)
    (hk : run.outcomes[k]? = some outcome) :
    ∃ action own, engine.Part depth context actions acts run k action own outcome := by
  induction walk_runList_iff.1 hwalk generalizing k with
  | nil => simp at hk
  | @detached context action rest task acts run hdetached hrest ih =>
      obtain ⟨found, own, hpart⟩ := ih hrest.walk hk
      refine ⟨found, own, ?_, ?_, hpart.walk, hpart.goesOn⟩
      · rw [Action.awaited_cons_of_detached rest hdetached]
        exact hpart.action_eq
      · exact hpart.inside.trans (List.suffix_cons ..).isInfix
  | @givenUp context action rest own result hawaited hgivenUp haction =>
      obtain ⟨rfl, rfl⟩ : k = 0 ∧ result = outcome := by
        cases k <;> simp_all [Run.givenUp]
      exact ⟨action, own, by rw [Action.awaited_cons rest hawaited, List.getElem?_cons_zero],
        List.infix_rfl, haction, fun hon => absurd hon (Run.not_goesOn_givenUp result 0)⟩
  | @awaited context action rest own acts result run hawaited hgivenUp haction hrest ih =>
      cases k with
      | zero =>
          obtain rfl : result = outcome := by simpa [Run.afterOutcome] using hk
          exact ⟨action, own, by rw [Action.awaited_cons rest hawaited, List.getElem?_cons_zero],
            (List.prefix_append own acts).isInfix, haction, fun _ => hgivenUp⟩
      | succ k =>
          obtain ⟨found, part, hpart⟩ := ih hrest.walk (by simpa [Run.afterOutcome] using hk)
          refine ⟨found, part, ?_, ?_, ?_, ?_⟩
          · rw [Action.awaited_cons rest hawaited, List.getElem?_cons_succ]
            exact hpart.action_eq
          · exact hpart.inside.trans (List.suffix_append own acts).isInfix
          · rw [Run.afterOutcome, List.take_succ_cons, Context.afterAll_cons]
            exact hpart.walk
          · rw [Run.goesOn_afterOutcome_succ]
            exact hpart.goesOn

/-- The branch of an action for failures was run for one failure: behind the
attempt that failed, and in a context in which `response.error` is the text of the
failure. -/
def RunsHandler (engine : Engine) (depth : Nat) (context : Context) (action : Action)
    (own : List Act) (fault : ActionFault) : Prop :=
  ∃ told inner run, own = told ++ inner ∧
    engine.Attempted depth context action told (.failure fault) ∧
    (context.withResponse (.failed fault.message)).lookup "response.error" =
      .str fault.message ∧
    Script.Walk (engine.runList (depth + 1) (context.withResponse (.failed fault.message))
      (Action.branch action.onError)) inner run

/-- The branch for failures was run for one of the failures of a run. -/
def HandlesFailure (engine : Engine) (depth : Nat) (context : Context) (actions : List Action)
    (acts : List Act) (run : Run) (k : Nat) (fault : ActionFault) : Prop :=
  ∃ action own, engine.Part depth context actions acts run k action own (.failure fault) ∧
    action.handlesErrors = true ∧
    engine.RunsHandler depth (context.afterAll (run.outcomes.take k)) action own fault

theorem branch_of_handlesErrors {action : Action} (hhandles : action.handlesErrors = true) :
    action.onError = some (Action.branch action.onError) := by
  cases honError : action.onError with
  | none => simp [Action.handlesErrors, Action.branch, honError] at hhandles
  | some actions => rfl

/-- The whole walk of an action that failed: either its request failed and the
branch was run, or it stands too deep or is of no known kind, and there is nothing
but the attempt. -/
theorem cases_of_failure {engine : Engine} {depth : Nat} {context : Context} {action : Action}
    {own : List Act} {fault : ActionFault} (hhandles : action.handlesErrors = true)
    (hwalk : Script.Walk (engine.runAction depth context action) own (.failure fault)) :
    (∃ error, fault = .request error ∧ engine.RunsHandler depth context action own fault) ∨
      (fault = .tooDeep engine.maxDepth ∧ engine.maxDepth < depth ∧ own = []) ∨
      (fault = .unknownKind ∧ action.kind = .unknown ∧
        own = Script.waited (action.delay.getD 0)) := by
  rw [runAction_eq] at hwalk
  obtain ⟨told, outcome, second, rfl, hattempt, hbehind⟩ := Script.walk_bind_iff.1 hwalk
  obtain ⟨_, haftermath, rfl⟩ := Script.walk_map_iff.1 hbehind
  have hattempted := walk_attempt_iff.1 hattempt
  generalize houtcome : Outcome.failure fault = outcome at hattempted haftermath
  have hattempted' := hattempted
  cases hattempted with
  | tooDeep hdeep =>
      obtain rfl := Outcome.failure.inj houtcome
      exact .inr (.inl ⟨rfl, hdeep, (Script.walk_done_iff.1 haftermath).1⟩)
  | skipped => cases houtcome
  | asked reply =>
      cases reply with
      | ok answer => cases houtcome
      | error error =>
          obtain rfl := Outcome.failure.inj houtcome
          rw [Outcome.ofReply, aftermath, branch_of_handlesErrors hhandles, runBranch] at haftermath
          obtain ⟨run, hlist, -⟩ := Script.walk_map_iff.1 haftermath
          have htext := (context.seesRefusal_refused error).error
          exact .inl ⟨error, rfl, _, second, run, rfl, hattempted', htext, hlist⟩
  | performed =>
      cases hkind : action.kind with
      | unknown =>
          rw [hkind] at houtcome haftermath
          obtain rfl := Outcome.failure.inj houtcome
          refine .inr (.inr ⟨rfl, rfl, ?_⟩)
          rw [(Script.walk_done_iff.1 haftermath).1, effects, List.map_nil, List.append_nil,
            List.append_nil]
      | _ => simp [hkind, outcome] at houtcome

/-- A run that goes on behind a failure has left an action with a branch for
failures behind.  If a request failed, that branch has been run for the failure;
otherwise the action stands too deep or is of no known kind, and then it did
nothing but wait. -/
theorem survived_failures (engine : Engine) (depth : Nat) (context : Context)
    (actions : List Action) {acts : List Act} {run : Run} {k : Nat} {fault : ActionFault}
    (hwalk : Script.Walk (engine.runList depth context actions) acts run)
    (hfault : run.outcomes[k]? = some (.failure fault)) (hgoesOn : run.GoesOn k) :
    ∃ action own, engine.Part depth context actions acts run k action own (.failure fault) ∧
      action.handlesErrors = true ∧
      ((∃ error, fault = .request error ∧
          engine.RunsHandler depth (context.afterAll (run.outcomes.take k)) action own fault) ∨
        (fault = .tooDeep engine.maxDepth ∧ engine.maxDepth < depth ∧ own = []) ∨
        (fault = .unknownKind ∧ action.kind = .unknown ∧
          own = Script.waited (action.delay.getD 0))) := by
  obtain ⟨action, own, hpart⟩ := exists_part hwalk hfault
  have hhandles : action.handlesErrors = true := by
    simpa [Action.isGivenUp, Outcome.succeeded] using hpart.goesOn hgoesOn
  exact ⟨action, own, hpart, hhandles, cases_of_failure hhandles hpart.walk⟩

/-- A refused request with a branch for failures, in front of another action. -/
theorem survived_failures_of_refusal :
    let handler : Action := { kind := .closeModal "m" }
    let action : Action :=
      { kind := .callApi default .get none none, onError := some [handler] }
    let run : Run := { outcomes := [.failure (.request default), .success none] }
    let acts := [Act.asked (requestOf {} default .get none none) (.error default),
      .performed (.call (.modal (.closed "m")))]
    Script.Walk (runList {} 0 {} [action, { kind := .runActions none }]) acts run ∧
      run.outcomes[0]? = some (.failure (.request default)) ∧ run.GoesOn 0 ∧
      HandlesFailure {} 0 {} [action, { kind := .runActions none }] acts run 0
        (.request default) := by
  intro handler action run acts
  have hwalk : Script.Walk (runList {} 0 {} [action, { kind := .runActions none }]) acts run :=
    .request (.perform .done)
  have hfault : run.outcomes[0]? = some (.failure (.request default)) := rfl
  have hgoesOn : run.GoesOn 0 := .inl rfl
  obtain ⟨found, own, hpart, hhandles, ⟨error, -, hruns⟩ | ⟨hdeep, -⟩ | ⟨hunknown, -⟩⟩ :=
    survived_failures {} 0 {} _ hwalk hfault hgoesOn
  · exact ⟨hwalk, hfault, hgoesOn, found, own, hpart, hhandles, hruns⟩
  · cases hdeep
  · cases hunknown

/-- Where nothing was done, a branch was run only if it does nothing. -/
theorem HandlesFailure.exists_walk_nil {engine : Engine} {depth : Nat} {context : Context}
    {actions : List Action} {run : Run} {k : Nat} {fault : ActionFault}
    (hhandles : engine.HandlesFailure depth context actions [] run k fault) :
    ∃ action context result, (Action.awaited actions)[k]? = some action ∧
      Script.Walk (engine.runList (depth + 1) context (Action.branch action.onError)) []
        result := by
  obtain ⟨action, own, hpart, -, told, inner, result, rfl, -, -, hbranch⟩ := hhandles
  obtain ⟨-, rfl⟩ := List.append_eq_nil_iff.1 (List.infix_nil.1 hpart.inside)
  exact ⟨action, _, result, hpart.action_eq, hbranch⟩

/-- Runs go on behind failures whose branches are not run: the one of an action of
no known kind, and the one of an action that stands too deep. -/
theorem failures_without_handling :
    (let action : Action := { kind := .unknown, onError := some [{ kind := .closeModal "m" }] }
     let run : Run := { outcomes := [.failure .unknownKind] }
     Script.Walk (runList {} 0 {} [action]) [] run ∧ run.GoesOn 0 ∧
      ¬ HandlesFailure {} 0 {} [action] [] run 0 .unknownKind) ∧
    (let action : Action :=
      { kind := .runActions none
        onError := some [{ kind := .runActions none, detached := true }] }
     let run : Run := { outcomes := [.failure (.tooDeep 0)] }
     Script.Walk (runList { maxDepth := 0 } 1 {} [action]) [] run ∧ run.GoesOn 0 ∧
      ¬ HandlesFailure { maxDepth := 0 } 1 {} [action] [] run 0 (.tooDeep 0)) := by
  refine ⟨⟨.done, .inl rfl, fun hhandles => ?_⟩, ⟨.done, .inl rfl, fun hhandles => ?_⟩⟩
  · obtain ⟨action, context, result, haction, hbranch⟩ := hhandles.exists_walk_nil
    obtain rfl := Option.some.inj haction
    obtain ⟨later, hacts, -⟩ := Script.walk_perform_iff.1 hbranch
    cases hacts
  · obtain ⟨action, context, result, haction, hbranch⟩ := hhandles.exists_walk_nil
    obtain rfl := Option.some.inj haction
    obtain ⟨task, later, hacts, -⟩ := Script.walk_start_iff.1 hbranch
    cases hacts

end Engine

end LivePage
