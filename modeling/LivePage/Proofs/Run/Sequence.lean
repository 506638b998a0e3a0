import LivePage.Proofs.Run.Attempt
import LivePage.Proofs.Run.Walk

/-!
# Runs over lists of actions

A list of actions composes: running two lists behind each other is running the
first and then, unless it was given up, the second in the context that the first
one leaves.  That context is decided by the answers of the awaited actions alone,
so nothing that fails, is skipped, is detached or happens inside a branch shows
in it.
-/

namespace LivePage

namespace Context

/-- The context behind some outcomes: the last answer among them is the response,
and without one nothing changes. -/
def afterAll (context : Context) (outcomes : List Outcome) : Context :=
  match (outcomes.filterMap Outcome.answer?).getLast? with
  | some answer => context.answered answer
  | none => context

@[simp]
theorem afterAll_nil (context : Context) : context.afterAll [] = context := rfl

theorem after_of_answer?_eq_none {outcome : Outcome} (context : Context)
    (hnone : outcome.answer? = none) : context.after outcome = context := by
  simp [after, hnone]

theorem after_of_answer?_eq_some {outcome : Outcome} {answer : HttpResponse} (context : Context)
    (hsome : outcome.answer? = some answer) :
    context.after outcome = context.answered answer := by
  simp [after, hsome, answered]

/-- A later answer takes the place of an earlier one. -/
theorem answered_answered (context : Context) (first second : HttpResponse) :
    (context.answered first).answered second = context.answered second := rfl

theorem afterAll_cons (context : Context) (outcome : Outcome) (outcomes : List Outcome) :
    context.afterAll (outcome :: outcomes) = (context.after outcome).afterAll outcomes := by
  cases hanswer : outcome.answer? with
  | none => simp [afterAll, hanswer, after_of_answer?_eq_none context hanswer]
  | some answer =>
      rw [after_of_answer?_eq_some context hanswer]
      cases hlast : (outcomes.filterMap Outcome.answer?).getLast? with
      | none => simp [afterAll, hanswer, hlast, List.getLast?_cons]
      | some last =>
          simp [afterAll, hanswer, hlast, List.getLast?_cons, answered_answered]

theorem afterAll_singleton (context : Context) (outcome : Outcome) :
    context.afterAll [outcome] = context.after outcome := by
  rw [afterAll_cons, afterAll_nil]

/-- The last answer is the response, whatever came before it; nothing else of the context
changes. -/
theorem afterAll_append_answer (context : Context) (before : List Outcome)
    (answer : HttpResponse) {behind : List Outcome}
    (hlast : ∀ outcome ∈ behind, ∀ other, outcome ≠ .success (some other)) :
    context.afterAll (before ++ .success (some answer) :: behind) =
      { context with
        response := some {
          success := true
          data := some answer.data
          status := some answer.status
          error := none } } := by
  have hbehind : behind.filterMap Outcome.answer? = [] := by
    refine List.filterMap_eq_nil_iff.2 fun outcome houtcome => ?_
    match outcome, hlast outcome houtcome with
    | .success (some other), hother => exact absurd rfl (hother other)
    | .success none, _ | .failure _, _ => rfl
  have hanswers : (before ++ .success (some answer) :: behind).filterMap Outcome.answer? =
      before.filterMap Outcome.answer? ++ [answer] := by
    simp [Outcome.answer?, hbehind]
  rw [afterAll, hanswers, List.getLast?_concat]
  rfl

/-- Outcomes without answers leave the context alone. -/
theorem afterAll_eq_self (context : Context) {outcomes : List Outcome}
    (hnone : ∀ outcome ∈ outcomes, outcome.answer? = none) :
    context.afterAll outcomes = context := by
  have hempty : outcomes.filterMap Outcome.answer? = [] :=
    List.filterMap_eq_nil_iff.2 hnone
  simp [afterAll, hempty]

end Context

namespace Run

/-- The run that ends with an outcome that nobody handles. -/
def givenUp (outcome : Outcome) : Run where
  success := false
  outcomes := [outcome]

/-- A run with one more outcome in front. -/
def afterOutcome (outcome : Outcome) (run : Run) : Run :=
  { run with outcomes := outcome :: run.outcomes }

/-- A run with one more task in front. -/
def afterStart (task : TaskId) (run : Run) : Run :=
  { run with detached := task :: run.detached }

/-- One run followed by another one. -/
def followedBy (first second : Run) : Run where
  success := second.success
  outcomes := first.outcomes ++ second.outcomes
  detached := first.detached ++ second.detached

@[simp]
theorem followedBy_afterOutcome (outcome : Outcome) (first second : Run) :
    (first.afterOutcome outcome).followedBy second =
      (first.followedBy second).afterOutcome outcome := rfl

@[simp]
theorem followedBy_afterStart (task : TaskId) (first second : Run) :
    (first.afterStart task).followedBy second = (first.followedBy second).afterStart task := rfl

@[simp]
theorem nil_followedBy (second : Run) : ({} : Run).followedBy second = second := rfl

end Run

/-- Whether an outcome of an action ends the list that the action stands in. -/
def Action.isGivenUp (action : Action) (outcome : Outcome) : Bool :=
  !outcome.succeeded && !action.handlesErrors

/-- The actions that a run waits for. -/
def Action.awaited (actions : List Action) : List Action :=
  actions.filter (!·.detached)

theorem Action.awaited_cons_of_detached {action : Action} (rest : List Action)
    (hdetached : action.detached = true) : awaited (action :: rest) = awaited rest :=
  List.filter_cons_of_neg (by simp [hdetached])

theorem Action.awaited_cons {action : Action} (rest : List Action)
    (hawaited : action.detached = false) : awaited (action :: rest) = action :: awaited rest :=
  List.filter_cons_of_pos (by simp [hawaited])

namespace Run

/-- The last outcome is a failure, and the awaited action that it belongs to has
no branch for failures. -/
def EndsUnhandled (actions : List Action) (run : Run) : Prop :=
  ∃ action outcome, (Action.awaited actions)[run.outcomes.length - 1]? = some action ∧
    run.outcomes.getLast? = some outcome ∧
    outcome.succeeded = false ∧ action.handlesErrors = false

theorem endsUnhandled_afterStart {action : Action} {rest : List Action} {task : TaskId}
    {run : Run} (hdetached : action.detached = true) :
    (run.afterStart task).EndsUnhandled (action :: rest) ↔ run.EndsUnhandled rest := by
  rw [EndsUnhandled, EndsUnhandled, Action.awaited_cons_of_detached rest hdetached]
  rfl

theorem endsUnhandled_givenUp {action : Action} {rest : List Action} {outcome : Outcome}
    (hawaited : action.detached = false) (hgivenUp : action.isGivenUp outcome = true) :
    (givenUp outcome).EndsUnhandled (action :: rest) := by
  simp only [Action.isGivenUp, Bool.and_eq_true, Bool.not_eq_true'] at hgivenUp
  refine ⟨action, outcome, ?_, rfl, hgivenUp.1, hgivenUp.2⟩
  rw [Action.awaited_cons rest hawaited]
  rfl

theorem endsUnhandled_afterOutcome {action : Action} {rest : List Action} {outcome : Outcome}
    {run : Run} (hawaited : action.detached = false)
    (hgoesOn : action.isGivenUp outcome = false) :
    (run.afterOutcome outcome).EndsUnhandled (action :: rest) ↔ run.EndsUnhandled rest := by
  have hcons := Action.awaited_cons rest hawaited
  cases houtcomes : run.outcomes with
  | nil =>
      -- the only outcome is the one in front, and it is handled or no failure
      simp only [EndsUnhandled, afterOutcome, houtcomes, hcons]
      simp only [Action.isGivenUp, Bool.and_eq_false_iff, Bool.not_eq_false'] at hgoesOn
      constructor
      · rintro ⟨_, _, haction, houtcome, hfailed, hunhandled⟩
        simp only [List.length_cons, List.length_nil, Nat.zero_add, Nat.sub_self,
          List.getElem?_cons_zero, Option.some.injEq, List.getLast?_singleton] at haction houtcome
        subst haction houtcome
        rcases hgoesOn with h | h
        · simp [h] at hfailed
        · simp [h] at hunhandled
      · rintro ⟨_, _, _, houtcome, _⟩
        simp at houtcome
  | cons first others =>
      simp [EndsUnhandled, afterOutcome, houtcomes, hcons, List.getLast?_cons]

end Run

namespace Engine

@[simp]
theorem runList_nil (engine : Engine) (depth : Nat) (context : Context) :
    engine.runList depth context [] = .done {} := by
  rw [runList, Script.pure_eq]

/-- A detached action is started, and the list goes on. -/
theorem runList_detached (engine : Engine) (depth : Nat) (context : Context) {action : Action}
    (rest : List Action) (hdetached : action.detached = true) :
    engine.runList depth context (action :: rest) =
      .start { action, context, depth } fun task =>
        (engine.runList depth context rest).bind fun run => .done (run.afterStart task) := by
  rw [runList, if_pos hdetached]
  rfl

/-- Any other action is awaited, and then the list goes on unless it is given
up. -/
theorem runList_awaited (engine : Engine) (depth : Nat) (context : Context) {action : Action}
    (rest : List Action) (hawaited : action.detached = false) :
    engine.runList depth context (action :: rest) =
      (engine.runAction depth context action).bind fun outcome =>
        if action.isGivenUp outcome then .done (.givenUp outcome)
        else (engine.runList depth (context.after outcome) rest).bind fun run =>
          .done (run.afterOutcome outcome) := by
  rw [runList, if_neg (by simp [hawaited])]
  rfl

/-- The ways of a run over a list: through all of it, or up to an awaited action at
which it is given up. -/
inductive ListWalk (engine : Engine) (depth : Nat) :
    Context → List Action → List Act → Run → Prop where
  | nil {context : Context} : ListWalk engine depth context [] [] {}
  | detached {context : Context} {action : Action} {rest : List Action} {task : TaskId}
      {acts : List Act} {run : Run} :
      action.detached = true → ListWalk engine depth context rest acts run →
      ListWalk engine depth context (action :: rest)
        (.started { action, context, depth } task :: acts) (run.afterStart task)
  | givenUp {context : Context} {action : Action} {rest : List Action} {own : List Act}
      {outcome : Outcome} :
      action.detached = false → action.isGivenUp outcome = true →
      Script.Walk (engine.runAction depth context action) own outcome →
      ListWalk engine depth context (action :: rest) own (.givenUp outcome)
  | awaited {context : Context} {action : Action} {rest : List Action} {own acts : List Act}
      {outcome : Outcome} {run : Run} :
      action.detached = false → action.isGivenUp outcome = false →
      Script.Walk (engine.runAction depth context action) own outcome →
      ListWalk engine depth (context.after outcome) rest acts run →
      ListWalk engine depth context (action :: rest) (own ++ acts) (run.afterOutcome outcome)

theorem listWalk_of_walk {engine : Engine} {depth : Nat} {context : Context}
    {actions : List Action} {acts : List Act} {run : Run}
    (hwalk : Script.Walk (engine.runList depth context actions) acts run) :
    engine.ListWalk depth context actions acts run := by
  induction actions generalizing context acts run with
  | nil =>
      obtain ⟨rfl, rfl⟩ := Script.walk_done_iff.1 (runList_nil engine depth context ▸ hwalk)
      exact .nil
  | cons action rest ih =>
      cases hdetached : action.detached with
      | true =>
          rw [runList_detached _ _ _ _ hdetached] at hwalk
          obtain ⟨task, later, rfl, hlater⟩ := Script.walk_start_iff.1 hwalk
          obtain ⟨inner, hrest, rfl⟩ := Script.walk_map_iff.1 hlater
          exact .detached hdetached (ih hrest)
      | false =>
          rw [runList_awaited _ _ _ _ hdetached] at hwalk
          obtain ⟨own, outcome, later, rfl, haction, hrest⟩ := Script.walk_bind_iff.1 hwalk
          cases hgivenUp : action.isGivenUp outcome with
          | true =>
              rw [hgivenUp, if_pos rfl] at hrest
              obtain ⟨rfl, rfl⟩ := Script.walk_done_iff.1 hrest
              rw [List.append_nil]
              exact .givenUp hdetached hgivenUp haction
          | false =>
              rw [hgivenUp, if_neg Bool.false_ne_true] at hrest
              obtain ⟨inner, hlist, rfl⟩ := Script.walk_map_iff.1 hrest
              exact .awaited hdetached hgivenUp haction (ih hlist)

theorem ListWalk.walk {engine : Engine} {depth : Nat} {context : Context}
    {actions : List Action} {acts : List Act} {run : Run}
    (hlist : engine.ListWalk depth context actions acts run) :
    Script.Walk (engine.runList depth context actions) acts run := by
  induction hlist with
  | nil =>
      rw [runList_nil]
      exact .done
  | detached hdetached _ ih =>
      rw [runList_detached _ _ _ _ hdetached]
      exact .start (Script.walk_map_iff.2 ⟨_, ih, rfl⟩)
  | @givenUp _ _ _ own _ hawaited hgivenUp haction =>
      rw [runList_awaited _ _ _ _ hawaited, ← List.append_nil own]
      apply haction.bind
      rw [if_pos hgivenUp]
      exact .done
  | awaited hawaited hgivenUp haction _ ih =>
      rw [runList_awaited _ _ _ _ hawaited]
      apply haction.bind
      rw [hgivenUp, if_neg Bool.false_ne_true]
      exact Script.walk_map_iff.2 ⟨_, ih, rfl⟩

/-- A walk through the script of a list is one of the ways above. -/
theorem walk_runList_iff {engine : Engine} {depth : Nat} {context : Context}
    {actions : List Action} {acts : List Act} {run : Run} :
    Script.Walk (engine.runList depth context actions) acts run ↔
      engine.ListWalk depth context actions acts run :=
  ⟨listWalk_of_walk, ListWalk.walk⟩

/-- What follows the run of a list: a second list, unless the first was given
up. -/
def thenRun (engine : Engine) (depth : Nat) (context : Context) (second : List Action)
    (run : Run) : Script Run :=
  if run.success then
    (engine.runList depth (context.afterAll run.outcomes) second).bind fun next =>
      .done (run.followedBy next)
  else .done run

theorem thenRun_afterStart (engine : Engine) (depth : Nat) (context : Context)
    (second : List Action) (task : TaskId) (run : Run) :
    engine.thenRun depth context second (run.afterStart task) =
      (engine.thenRun depth context second run).bind fun whole =>
        .done (whole.afterStart task) := by
  cases hsuccess : run.success with
  | false => simp [thenRun, Run.afterStart, hsuccess, Script.bind]
  | true => simp [thenRun, Run.afterStart, Run.followedBy, hsuccess, Script.bind_assoc, Script.bind]

theorem thenRun_afterOutcome (engine : Engine) (depth : Nat) (context : Context)
    (second : List Action) (outcome : Outcome) (run : Run) :
    engine.thenRun depth context second (run.afterOutcome outcome) =
      (engine.thenRun depth (context.after outcome) second run).bind fun whole =>
        .done (whole.afterOutcome outcome) := by
  cases hsuccess : run.success with
  | false => simp [thenRun, Run.afterOutcome, hsuccess, Script.bind]
  | true =>
      simp [thenRun, Run.afterOutcome, Run.followedBy, hsuccess, Context.afterAll_cons,
        Script.bind_assoc, Script.bind]

/-- Two lists behind each other run one after the other. -/
theorem runList_append (engine : Engine) (depth : Nat) (context : Context)
    (first second : List Action) :
    engine.runList depth context (first ++ second) =
      (engine.runList depth context first).bind (engine.thenRun depth context second) := by
  induction first generalizing context with
  | nil => simp [thenRun, Script.bind]
  | cons action rest ih =>
      cases hdetached : action.detached with
      | true =>
          rw [List.cons_append, runList_detached _ _ _ _ hdetached,
            runList_detached _ _ _ _ hdetached, Script.bind]
          congr 1
          funext task
          rw [ih, Script.bind_assoc, Script.bind_assoc]
          congr 1
          funext run
          rw [Script.bind, thenRun_afterStart]
      | false =>
          rw [List.cons_append, runList_awaited _ _ _ _ hdetached,
            runList_awaited _ _ _ _ hdetached, Script.bind_assoc]
          congr 1
          funext outcome
          cases hgivenUp : action.isGivenUp outcome with
          | true => rfl
          | false =>
              simp only [Bool.false_eq_true, if_false]
              rw [ih, Script.bind_assoc, Script.bind_assoc]
              congr 1
              funext run
              rw [Script.bind, thenRun_afterOutcome]

/-- A run that is given up reports an outcome of an awaited action that nobody
handles as its last one, and any other run does not. -/
theorem success_eq_false_iff {engine : Engine} {depth : Nat} {context : Context}
    {actions : List Action} {acts : List Act} {run : Run}
    (hwalk : Script.Walk (engine.runList depth context actions) acts run) :
    run.success = false ↔ run.EndsUnhandled actions := by
  induction walk_runList_iff.1 hwalk with
  | nil => simp [Run.EndsUnhandled]
  | detached hdetached hrest ih =>
      rw [Run.endsUnhandled_afterStart hdetached]
      exact ih hrest.walk
  | givenUp hawaited hgivenUp _ =>
      exact iff_of_true rfl (Run.endsUnhandled_givenUp hawaited hgivenUp)
  | awaited hawaited hgivenUp _ hrest ih =>
      rw [Run.endsUnhandled_afterOutcome hawaited hgivenUp]
      exact ih hrest.walk

/-- A list of actions runs as its parts run one after the other, and the context
that they share is settled by the answers to their own requests: the response in it is the
last of them, and nothing else in it ever changes. -/
theorem sequence_composition (engine : Engine) (depth : Nat) (context : Context)
    (first second : List Action) :
    engine.runList depth context (first ++ second) =
        ((engine.runList depth context first).bind fun run =>
          if run.success then
            (engine.runList depth (context.afterAll run.outcomes) second).bind fun next =>
              .done (run.followedBy next)
          else .done run) ∧
      (∀ acts run, Script.Walk (engine.runList depth context first) acts run →
        (run.success = false ↔ run.EndsUnhandled first)) ∧
      (∀ outcomes, (∀ outcome ∈ outcomes, outcome.answer? = none) →
        context.afterAll outcomes = context) ∧
      (∀ before answer behind,
        (∀ outcome ∈ behind, ∀ other, outcome ≠ Outcome.success (some other)) →
          context.afterAll (before ++ .success (some answer) :: behind) =
            { context with
              response := some {
                success := true
                data := some answer.data
                status := some answer.status
                error := none } }) ∧
      (∀ outcome, context.after outcome = context.afterAll [outcome]) ∧
      (∀ action, action.detached = true →
        engine.runList depth context (action :: second) =
          .start { action, context, depth } fun task =>
            (engine.runList depth context second).bind fun run =>
              .done (run.afterStart task)) ∧
      (∀ action, action.detached = false →
        engine.runList depth context (action :: second) =
          (engine.attempt depth context action).bind fun outcome =>
            (engine.aftermath depth context action outcome).bind fun _ =>
              if action.isGivenUp outcome then .done (.givenUp outcome)
              else (engine.runList depth (context.after outcome) second).bind fun run =>
                .done (run.afterOutcome outcome)) ∧
      (∀ action onSuccess onError,
        engine.attempt depth context { action with onSuccess, onError } =
          engine.attempt depth context action) ∧
      ∀ action acts outcome answer,
        Script.Walk (engine.attempt depth context action) acts outcome →
          (outcome.answer? = some answer ↔ ∃ message, Act.asked message (.ok answer) ∈ acts) := by
  refine ⟨runList_append engine depth context first second,
    fun acts run hwalk => success_eq_false_iff hwalk,
    fun outcomes hnone => context.afterAll_eq_self hnone,
    fun before answer behind hlast => context.afterAll_append_answer before answer hlast,
    fun outcome => (context.afterAll_singleton outcome).symm,
    fun action hdetached => runList_detached engine depth context second hdetached,
    fun action hawaited => ?_, fun action onSuccess onError => rfl,
    fun action acts outcome answer hwalk => (walk_attempt_iff.1 hwalk).answer?_eq_some_iff⟩
  rw [runList_awaited engine depth context second hawaited, runAction_eq, Script.bind_assoc]
  congr 1
  funext outcome
  rw [Script.bind_assoc]
  rfl

/-- An action that asks for the data of the second answer in its condition is run behind two
requests, although another response was there before and another answer came first. -/
theorem sequence_composition_of_answer :
    let ask : Action := { kind := .callApi default .get none none }
    let reload : Action :=
      { kind := .refresh "list"
        condition := some
          { field := "response.data", operator := .equals, value := some (.str "two") } }
    let context : Context := { response := some { success := false, error := some "old" } }
    let answer (text : String) : HttpResponse := { status := 200, data := .str text }
    Condition.allows reload.condition context = false ∧
      ∃ first second run,
        Script.Walk (runList {} 0 context ([ask, ask] ++ [reload]))
          [.asked first (.ok (answer "one")), .asked second (.ok (answer "two")),
            .performed (.refresh "list")] run := by
  intro ask reload context answer
  obtain ⟨hparts, -, -, hanswer, -⟩ := sequence_composition {} 0 context [ask, ask] [reload]
  have hask (context : Context) (text : String) :
      Script.Walk (runAction {} 0 context ask)
        [.asked (requestOf context default .get none none) (.ok (answer text))]
        (.success (some (answer text))) := .request .done
  have hasked := ListWalk.awaited rfl rfl (hask context "one")
    (.awaited rfl rfl (hask (context.after (.success (some (answer "one")))) "two") .nil)
  have hseen := hanswer [.success (some (answer "one"))] (answer "two") [] (by simp)
  have hreload : Script.Walk (runAction {} 0 (context.afterAll
        ([.success (some (answer "one"))] ++ .success (some (answer "two")) :: [])) reload)
      [.performed (.refresh "list")] (.success none) := by
    rw [hseen, runAction_eq]
    exact (walk_attempt_iff.2 (.performed (Nat.zero_le _) (by decide +kernel) rfl)).bind .done
  have hwhole := hasked.walk.bind
    (f := fun run => if run.success then
        (runList {} 0 (context.afterAll run.outcomes) [reload]).bind fun next =>
          .done (run.followedBy next)
      else .done run)
    (Script.walk_map_iff.2 ⟨_, (ListWalk.awaited rfl rfl hreload .nil).walk, rfl⟩)
  exact ⟨by decide +kernel, _, _, _, hparts ▸ hwhole⟩

end Engine

end LivePage
