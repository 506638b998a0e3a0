import LivePage.Proofs.Run.Budget

/-!
# Courses of runs

Which actions a run comes to by itself, one after the other.  A walk says what was done;
its course takes it apart into the actions that did it, each with the context that it was
tried in and the way it ended.  Unlike an account it leaves the tasks that are started to
themselves, and so it keeps the order.  From it the refreshes of a walk are counted: there is
one for every action that sets a filter parameter or refreshes, if the action is executed,
and where a filter parameter is set, the refresh comes directly behind it.
-/

namespace LivePage

theorem filterMap_cons_toList {α β : Type} (f : α → Option β) (a : α) (rest : List α) :
    (a :: rest).filterMap f = (f a).toList ++ rest.filterMap f := by
  rw [List.filterMap_cons]
  cases f a <;> rfl

/-- The context that the branch behind an outcome sees. -/
def Context.behind (context : Context) : Outcome → Context
  | .success (some answer) => context.answered answer
  | .failure (.request error) => context.refused error
  | _ => context

/-- The actions that are run behind an outcome of an action. -/
def Action.behind (action : Action) : Outcome → List Action
  | .success (some _) => branch action.onSuccess
  | .failure (.request _) => branch action.onError
  | _ => []

/-- An action that a run comes to, with what it does itself and how it ends. -/
structure Trial where
  depth : Nat
  context : Context
  action : Action
  told : List Act
  outcome : Outcome

namespace Engine

/-- The acts of one run over a list, taken apart into the actions that it comes to.  The
action of a task is not among them: it is only started. -/
inductive Course (engine : Engine) :
    Nat → Context → List Action → List Act → List Trial → Prop where
  | nil {depth : Nat} {context : Context} : Course engine depth context [] [] []
  | detached {depth : Nat} {context : Context} {action : Action} {rest : List Action}
      {task : TaskId} {acts : List Act} {trials : List Trial} :
      action.detached = true → Course engine depth context rest acts trials →
      Course engine depth context (action :: rest)
        (.started { action, context, depth } task :: acts) trials
  | givenUp {depth : Nat} {context : Context} {action : Action} {rest : List Action}
      {told inner : List Act} {trials : List Trial} {outcome : Outcome} :
      action.detached = false → action.isGivenUp outcome = true →
      engine.Attempted depth context action told outcome →
      Course engine (depth + 1) (context.behind outcome) (action.behind outcome) inner trials →
      Course engine depth context (action :: rest) (told ++ inner)
        (⟨depth, context, action, told, outcome⟩ :: trials)
  | awaited {depth : Nat} {context : Context} {action : Action} {rest : List Action}
      {told inner acts : List Act} {trials later : List Trial} {outcome : Outcome} :
      action.detached = false → action.isGivenUp outcome = false →
      engine.Attempted depth context action told outcome →
      Course engine (depth + 1) (context.behind outcome) (action.behind outcome) inner trials →
      Course engine depth (context.after outcome) rest acts later →
      Course engine depth context (action :: rest) (told ++ inner ++ acts)
        (⟨depth, context, action, told, outcome⟩ :: (trials ++ later))

variable {engine : Engine}

mutual

/-- A walk through an action is its attempt and then a course of the branch behind it. -/
theorem exists_course_action (engine : Engine) (depth : Nat) (context : Context)
    (action : Action) {acts : List Act} {outcome : Outcome}
    (hwalk : Script.Walk (engine.runAction depth context action) acts outcome) :
    ∃ told inner trials, acts = told ++ inner ∧
      engine.Attempted depth context action told outcome ∧
      engine.Course (depth + 1) (context.behind outcome) (action.behind outcome) inner trials := by
  match action with
  | ⟨kind, condition, delay, detached, onSuccess, onError⟩ =>
    rw [runAction_eq] at hwalk
    obtain ⟨told, result, inner, rfl, hattempt, hlater⟩ := Script.walk_bind_iff.1 hwalk
    obtain ⟨_, haftermath, rfl⟩ := Script.walk_map_iff.1 hlater
    have hattempted := walk_attempt_iff.1 hattempt
    match result with
    | .success (some answer) =>
        obtain ⟨trials, hcourse⟩ :=
          exists_course_branch engine (depth + 1) (context.answered answer) onSuccess haftermath
        exact ⟨told, inner, trials, rfl, hattempted, hcourse⟩
    | .failure (.request error) =>
        obtain ⟨trials, hcourse⟩ :=
          exists_course_branch engine (depth + 1) (context.refused error) onError haftermath
        exact ⟨told, inner, trials, rfl, hattempted, hcourse⟩
    | .success none | .failure (.tooDeep _) | .failure .unknownKind | .failure (.aborted _) =>
        obtain ⟨rfl, -⟩ := Script.walk_done_iff.1 haftermath
        exact ⟨told, [], [], rfl, hattempted, .nil⟩
termination_by structural action

theorem exists_course_branch (engine : Engine) (depth : Nat) (context : Context)
    (actions : Option (List Action)) {acts : List Act} {result : Unit}
    (hwalk : Script.Walk (engine.runBranch depth context actions) acts result) :
    ∃ trials, engine.Course depth context (Action.branch actions) acts trials := by
  match actions with
  | none =>
      rw [runBranch] at hwalk
      obtain ⟨rfl, -⟩ := Script.walk_done_iff.1 hwalk
      exact ⟨[], .nil⟩
  | some actions =>
      rw [runBranch] at hwalk
      obtain ⟨run, hlist, -⟩ := Script.walk_map_iff.1 hwalk
      exact exists_course engine depth context actions hlist
termination_by structural actions

/-- Every walk through the script of a list is a course of it. -/
theorem exists_course (engine : Engine) (depth : Nat) (context : Context)
    (actions : List Action) {acts : List Act} {run : Run}
    (hwalk : Script.Walk (engine.runList depth context actions) acts run) :
    ∃ trials, engine.Course depth context actions acts trials := by
  match actions with
  | [] =>
      cases walk_runList_iff.1 hwalk with
      | nil => exact ⟨[], .nil⟩
  | action :: rest =>
      cases walk_runList_iff.1 hwalk with
      | detached hdetached hrest =>
          obtain ⟨trials, hcourse⟩ := exists_course engine depth context rest hrest.walk
          exact ⟨trials, .detached hdetached hcourse⟩
      | givenUp hawaited hgivenUp haction =>
          obtain ⟨told, inner, trials, rfl, hattempted, hinner⟩ :=
            exists_course_action engine depth context action haction
          exact ⟨_, .givenUp hawaited hgivenUp hattempted hinner⟩
      | @awaited _ _ _ _ _ outcome _ hawaited hgivenUp haction hrest =>
          obtain ⟨told, inner, trials, rfl, hattempted, hinner⟩ :=
            exists_course_action engine depth context action haction
          obtain ⟨later, hcourse⟩ :=
            exists_course engine depth (context.after outcome) rest hrest.walk
          exact ⟨_, .awaited hawaited hgivenUp hattempted hinner hcourse⟩
termination_by structural actions

end

/-- An attempt and a walk through the branch behind it are a walk through the action. -/
theorem Attempted.walk_runAction {depth : Nat} {context : Context} {action : Action}
    {told inner : List Act} {outcome : Outcome} {run : Run}
    (hattempted : engine.Attempted depth context action told outcome)
    (hinner : Script.Walk (engine.runList (depth + 1) (context.behind outcome)
      (action.behind outcome)) inner run) :
    Script.Walk (engine.runAction depth context action) (told ++ inner) outcome := by
  have hbranch (context : Context) (actions : Option (List Action))
      (hlist : Script.Walk (engine.runList (depth + 1) context (Action.branch actions)) inner
        run) : Script.Walk (engine.runBranch (depth + 1) context actions) inner () := by
    cases actions with
    | none =>
        rw [Action.branch, Option.getD_none, runList_nil] at hlist
        rw [(Script.walk_done_iff.1 hlist).1]
        exact .done
    | some actions => exact Script.walk_map_iff.2 ⟨run, hlist, rfl⟩
  have haftermath : Script.Walk (engine.aftermath depth context action outcome) inner () := by
    match outcome with
    | .success (some answer) => exact hbranch _ _ hinner
    | .failure (.request error) => exact hbranch _ _ hinner
    | .success none | .failure (.tooDeep _) | .failure .unknownKind | .failure (.aborted _) =>
        exact hbranch _ none hinner
  rw [runAction_eq]
  exact (walk_attempt_iff.2 hattempted).bind (Script.walk_map_iff.2 ⟨(), haftermath, rfl⟩)

/-- A course is a walk through the script of its list. -/
theorem Course.exists_walk {depth : Nat} {context : Context} {actions : List Action}
    {acts : List Act} {trials : List Trial}
    (hcourse : engine.Course depth context actions acts trials) :
    ∃ run, Script.Walk (engine.runList depth context actions) acts run := by
  induction hcourse with
  | nil => exact ⟨{}, walk_runList_iff.2 .nil⟩
  | detached hdetached _ ih =>
      obtain ⟨run, hrest⟩ := ih
      exact ⟨_, walk_runList_iff.2 (.detached hdetached (walk_runList_iff.1 hrest))⟩
  | givenUp hawaited hgivenUp hattempted _ ih =>
      obtain ⟨run, hinner⟩ := ih
      have haction := hattempted.walk_runAction hinner
      exact ⟨_, walk_runList_iff.2 (.givenUp hawaited hgivenUp haction)⟩
  | awaited hawaited hgivenUp hattempted _ _ ihinner ihrest =>
      obtain ⟨run, hinner⟩ := ihinner
      obtain ⟨later, hrest⟩ := ihrest
      have haction := hattempted.walk_runAction hinner
      exact ⟨_, walk_runList_iff.2
        (.awaited hawaited hgivenUp haction (walk_runList_iff.1 hrest))⟩

/-- Exactly the walks through the script of a list have a course. -/
theorem exists_course_iff {depth : Nat} {context : Context} {actions : List Action}
    {acts : List Act} :
    (∃ trials, engine.Course depth context actions acts trials) ↔
      ∃ run, Script.Walk (engine.runList depth context actions) acts run :=
  ⟨fun ⟨_, hcourse⟩ => hcourse.exists_walk,
    fun ⟨_, hwalk⟩ => exists_course engine depth context actions hwalk⟩

theorem Course.attempted {depth : Nat} {context : Context} {actions : List Action}
    {acts : List Act} {trials : List Trial}
    (hcourse : engine.Course depth context actions acts trials) :
    ∀ trial ∈ trials,
      engine.Attempted trial.depth trial.context trial.action trial.told trial.outcome := by
  induction hcourse with
  | nil => exact fun _ hmem => absurd hmem List.not_mem_nil
  | detached _ _ ih => exact ih
  | givenUp _ _ hattempted _ ih => exact List.forall_mem_cons.2 ⟨hattempted, ih⟩
  | awaited _ _ hattempted _ _ ihinner ihrest =>
      exact List.forall_mem_cons.2 ⟨hattempted, List.forall_mem_append.2 ⟨ihinner, ihrest⟩⟩

end Engine

/-! ## Refreshes -/

/-- A refresh that is asked for. -/
structure Reload where
  component : String
  /-- The filter parameter of the component that was set directly before, with its value. -/
  filter : Option (String × Json)

/-- The filter parameter of a component that an effect sets. -/
def Effect.filter? (component : String) : Effect → Option (String × Json)
  | .store (.edit other (.filter name value)) =>
      if other = component then some (name, value) else none
  | _ => none

theorem Effect.filter?_eq_some_iff {component name : String} {value : Json} {effect : Effect} :
    effect.filter? component = some (name, value) ↔
      effect = .store (.edit component (.filter name value)) := by
  constructor
  · intro hfilter
    unfold filter? at hfilter
    split at hfilter
    · next other _ _ =>
        by_cases hother : other = component
        · rw [if_pos hother] at hfilter
          obtain ⟨rfl, rfl⟩ := Prod.mk.inj (Option.some.inj hfilter)
          rw [hother]
        · rw [if_neg hother] at hfilter
          cases hfilter
    · cases hfilter
  · rintro rfl
    exact if_pos rfl

/-- The refresh that an effect asks for, if another effect was done directly before it. -/
def Effect.reload? (last : Option Effect) : Effect → Option Reload
  | .refresh component => some { component, filter := last.bind (filter? component) }
  | _ => none

/-- The refresh that an action of a kind asks for. -/
def ActionKind.reload? (context : Context) : ActionKind → Option Reload
  | .filterData component field value =>
      some { component, filter := some (field, value.interpolate context) }
  | .refresh component => some { component, filter := none }
  | _ => none

namespace Engine

/-- The action is executed: it is not too deep, and its condition holds. -/
def Executes (engine : Engine) (trial : Trial) : Prop :=
  trial.depth ≤ engine.maxDepth ∧ Condition.allows trial.action.condition trial.context = true

instance (engine : Engine) (trial : Trial) : Decidable (engine.Executes trial) :=
  inferInstanceAs (Decidable (_ ∧ _))

/-- The refresh that an action asks for if it is executed. -/
def reload? (engine : Engine) (trial : Trial) : Option Reload :=
  if engine.Executes trial then trial.action.kind.reload? trial.context else none

end Engine

namespace Act

/-- The refreshes among some acts, if some effect was done directly before them. -/
def reloads : Option Effect → List Act → List Reload
  | _, [] => []
  | last, performed effect :: rest => (effect.reload? last).toList ++ reloads (some effect) rest
  | _, _ :: rest => reloads none rest

/-- The effect that was done last. -/
def lastEffect : Option Effect → List Act → Option Effect
  | last, [] => last
  | _, performed effect :: rest => lastEffect (some effect) rest
  | _, _ :: rest => lastEffect none rest

/-- No filter parameter was set last. -/
def IsClear (last : Option Effect) : Prop :=
  ∀ component, last.bind (Effect.filter? component) = none

theorem isClear_none : IsClear none :=
  fun _ => rfl

theorem reloads_of_isClear {last : Option Effect} (hclear : IsClear last) (acts : List Act) :
    reloads last acts = reloads none acts := by
  cases acts with
  | nil => rfl
  | cons act rest =>
      cases act with
      | performed effect =>
          cases effect with
          | refresh component =>
              rw [reloads, reloads, Effect.reload?, Effect.reload?, hclear component]
              rfl
          | store | call => rfl
      | _ => rfl

theorem reloads_append (last : Option Effect) (first second : List Act) :
    reloads last (first ++ second) =
      reloads last first ++ reloads (lastEffect last first) second := by
  induction first generalizing last with
  | nil => rfl
  | cons act rest ih =>
      cases act with
      | performed effect => simp only [List.cons_append, reloads, lastEffect, ih, List.append_assoc]
      | _ => exact ih none

theorem lastEffect_append (last : Option Effect) (first second : List Act) :
    lastEffect last (first ++ second) = lastEffect (lastEffect last first) second := by
  induction first generalizing last with
  | nil => rfl
  | cons act rest ih => cases act <;> exact ih _

/-- Acts with some refreshes, which set no filter parameter last. -/
structure Asks (acts : List Act) (asked : List Reload) : Prop where
  reloads : ∀ last, IsClear last → reloads last acts = asked
  isClear : ∀ last, IsClear last → IsClear (lastEffect last acts)

theorem asks_nil : Asks [] [] :=
  ⟨fun _ _ => rfl, fun _ hclear => hclear⟩

theorem Asks.append {first second : List Act} {one other : List Reload} (hfirst : Asks first one)
    (hsecond : Asks second other) : Asks (first ++ second) (one ++ other) where
  reloads := fun last hclear => by
    rw [reloads_append, hfirst.reloads last hclear, hsecond.reloads _ (hfirst.isClear last hclear)]
  isClear := fun last hclear => by
    rw [lastEffect_append]
    exact hsecond.isClear _ (hfirst.isClear last hclear)

/-- An act that is no effect asks for nothing. -/
theorem asks_singleton {act : Act} (hact : ∀ effect, act ≠ performed effect) : Asks [act] [] := by
  cases act with
  | performed effect => exact absurd rfl (hact effect)
  | _ => exact ⟨fun _ _ => rfl, fun _ _ => isClear_none⟩

theorem asks_waited (ms : Nat) : Asks (Script.waited ms) [] := by
  rw [Script.waited]
  split
  · exact asks_nil
  · exact asks_singleton (by simp)

end Act

namespace Engine

variable {engine : Engine}

/-- The effects of a kind ask for one refresh if the kind does.  If they set a filter
parameter, they do so directly before it. -/
theorem asks_effects (engine : Engine) (context : Context) (kind : ActionKind) :
    Act.Asks ((engine.effects context kind).map .performed) (kind.reload? context).toList := by
  constructor
  · intro last hclear
    cases kind with
    | refresh component =>
        simp [effects, Act.reloads, Effect.reload?, ActionKind.reload?, hclear component]
    | filterData =>
        simp [effects, Act.reloads, Effect.reload?, Effect.filter?, ActionKind.reload?]
    | setValue component value field => cases field <;> rfl
    | _ => rfl
  · intro last hclear component
    cases kind with
    | callApi | runActions | unknown => exact hclear component
    | setValue other value field => cases field <;> rfl
    | _ => rfl

/-- An attempt asks for one refresh if the action does and is executed. -/
theorem Attempted.asks {depth : Nat} {context : Context} {action : Action} {told : List Act}
    {outcome : Outcome} (hattempted : engine.Attempted depth context action told outcome) :
    Act.Asks told (engine.reload? ⟨depth, context, action, told, outcome⟩).toList := by
  rw [reload?]
  cases hattempted with
  | tooDeep hdeep =>
      rw [if_neg fun hexecutes => absurd hexecutes.1 (Nat.not_le.2 hdeep)]
      exact Act.asks_nil
  | skipped _ hrefused =>
      rw [if_neg fun hexecutes => Bool.false_ne_true (hrefused.symm.trans hexecutes.2)]
      exact Act.asks_nil
  | asked reply hdepth hallows hkind =>
      rw [if_pos ⟨hdepth, hallows⟩, hkind]
      exact (Act.asks_waited _).append (Act.asks_singleton (by simp))
  | performed hdepth hallows hkind =>
      rw [if_pos ⟨hdepth, hallows⟩]
      exact (Act.asks_waited _).append (asks_effects engine context action.kind)

/-- An action that asks for a refresh does not fail. -/
theorem Attempted.outcome_of_reload? {depth : Nat} {context : Context} {action : Action}
    {told : List Act} {outcome : Outcome}
    (hattempted : engine.Attempted depth context action told outcome)
    (hasks : (engine.reload? ⟨depth, context, action, told, outcome⟩).isSome) :
    outcome = .success none := by
  obtain ⟨reload, hsome⟩ := Option.isSome_iff_exists.1 hasks
  obtain ⟨⟨hdepth, -⟩, hkind⟩ := Option.ite_none_right_eq_some.1 hsome
  change action.kind.reload? context = some reload at hkind
  cases hattempted with
  | tooDeep hdeep => exact absurd hdepth (Nat.not_le.2 hdeep)
  | skipped => rfl
  | asked reply _ _ hcall =>
      rw [hcall] at hkind
      cases hkind
  | performed =>
      cases hsort : action.kind with
      | unknown =>
          rw [hsort] at hkind
          cases hkind
      | _ => rfl

/-- An action that refreshes a component does nothing else at once. -/
theorem Attempted.eq_refresh {depth : Nat} {context : Context} {action : Action}
    {told : List Act} {outcome : Outcome}
    (hattempted : engine.Attempted depth context action told outcome) {component : String}
    (hkind : action.kind = .refresh component) {effect : Effect}
    (hmem : .performed effect ∈ told) : effect = .refresh component := by
  obtain ⟨ms, hact⟩ | ⟨message, reply, hact⟩ | ⟨other, hother, hact⟩ :=
    hattempted.act_cases hmem
  · cases hact
  · cases hact
  · cases hact
    rw [hkind] at hother
    exact List.mem_singleton.1 hother

/-- A course asks for the refreshes of the actions that are executed, one after the other. -/
theorem Course.asks {depth : Nat} {context : Context} {actions : List Action}
    {acts : List Act} {trials : List Trial}
    (hcourse : engine.Course depth context actions acts trials) :
    Act.Asks acts (trials.filterMap engine.reload?) := by
  induction hcourse with
  | nil => exact Act.asks_nil
  | detached _ _ ih => exact (Act.asks_singleton (by simp)).append ih
  | givenUp _ _ hattempted _ ih =>
      rw [filterMap_cons_toList]
      exact hattempted.asks.append ih
  | awaited _ _ hattempted _ _ ihinner ihrest =>
      rw [filterMap_cons_toList, List.filterMap_append, ← List.append_assoc]
      exact (hattempted.asks.append ihinner).append ihrest

end Engine

end LivePage
