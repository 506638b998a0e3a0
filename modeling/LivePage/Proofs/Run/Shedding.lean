import LivePage.Proofs.Run.Starts

/-!
# Runs without their detached actions

What becomes of a run when the detached actions are taken out of its list.  The
run does and reports the same, but that it starts no tasks of its own; and a run
with detached actions starts one task for each of them that it comes to, with the
context of that place.  Two runs over one list that get the same answers agree,
whatever names their tasks are given.
-/

namespace LivePage

namespace Act

/-- The job and the task that an act starts at a depth. -/
def startedAt? (depth : Nat) : Act → Option (Job × TaskId)
  | started job task => if job.depth = depth then some (job, task) else none
  | _ => none

/-- The acts but for those that start tasks at a depth. -/
def shed (depth : Nat) (acts : List Act) : List Act :=
  acts.filter fun act => (act.startedAt? depth).isNone

@[simp]
theorem shed_append (depth : Nat) (first second : List Act) :
    shed depth (first ++ second) = shed depth first ++ shed depth second :=
  List.filter_append ..

theorem startedAt?_eq_none_of_deeper {depth : Nat} {acts : List Act}
    (hdeeper : ∀ job ∈ jobs acts, depth < job.depth) :
    ∀ act ∈ acts, act.startedAt? depth = none := by
  intro act hact
  cases act with
  | started job task =>
      have hjob := hdeeper job (List.mem_filterMap.2 ⟨_, hact, rfl⟩)
      rw [startedAt?, if_neg (Nat.ne_of_gt hjob)]
  | _ => rfl

/-- Acts that start tasks deeper only are not shed. -/
theorem shed_eq_self {depth : Nat} {acts : List Act}
    (hdeeper : ∀ job ∈ jobs acts, depth < job.depth) : shed depth acts = acts :=
  List.filter_eq_self.2 fun act hact => by
    rw [startedAt?_eq_none_of_deeper hdeeper act hact]
    rfl

/-- An act without the name of the task that it starts. -/
def unnamed : Act → Act
  | started job _ => started job 0
  | act => act

/-- Every reply is the one that a function gives. -/
def Honest (reply : HttpRequest → HttpReply) (acts : List Act) : Prop :=
  ∀ message got, asked message got ∈ acts → got = reply message

theorem honest_append_iff {reply : HttpRequest → HttpReply} {first second : List Act} :
    Honest reply (first ++ second) ↔ Honest reply first ∧ Honest reply second := by
  simp only [Honest, List.mem_append, or_imp, forall_and]

theorem Honest.tail {reply : HttpRequest → HttpReply} {act : Act} {acts : List Act}
    (hhonest : Honest reply (act :: acts)) : Honest reply acts :=
  fun message got hmem => hhonest message got (.tail act hmem)

theorem Honest.shed {reply : HttpRequest → HttpReply} {acts : List Act}
    (hhonest : Honest reply acts) (depth : Nat) : Honest reply (Act.shed depth acts) :=
  fun message got hmem => hhonest message got (List.mem_filter.1 hmem).1

end Act

namespace Engine

/-- The jobs of the detached actions of a list, each in the context that the
outcomes of the awaited actions before it leave. -/
def detachedJobs (depth : Nat) (context : Context) : List Action → List Outcome → List Job
  | [], _ => []
  | action :: rest, outcomes =>
      if action.detached then { action, context, depth } :: detachedJobs depth context rest outcomes
      else detachedJobs depth (outcomes.head?.elim context context.after) rest outcomes.tail

/-- There is one job for every detached action, in the order of the list. -/
theorem map_action_detachedJobs (depth : Nat) (context : Context) (actions : List Action)
    (outcomes : List Outcome) :
    (detachedJobs depth context actions outcomes).map Job.action =
      actions.filter (·.detached) := by
  induction actions generalizing context outcomes with
  | nil => rfl
  | cons action rest ih =>
      cases hdetached : action.detached with
      | true => simp [detachedJobs, hdetached, ih]
      | false => simp [detachedJobs, hdetached, ih]

end Engine

namespace Run

/-- How far a run comes in a list: through all of it, or up to the awaited action
that it is given up at. -/
structure Reaches (actions reached : List Action) (run : Run) : Prop where
  initial : reached <+: actions
  eq_of_success : run.success = true → reached = actions
  last_of_givenUp : run.success = false →
    ∃ action, reached.getLast? = some action ∧ action.detached = false
  length_outcomes : run.outcomes.length = (Action.awaited reached).length

theorem reaches_nil : Reaches [] [] {} :=
  ⟨List.prefix_refl [], fun _ => rfl, fun h => absurd h (by simp), rfl⟩

theorem Reaches.afterStart {action : Action} {rest reached : List Action} {run : Run}
    (hreaches : Reaches rest reached run) (hdetached : action.detached = true) (task : TaskId) :
    Reaches (action :: rest) (action :: reached) (run.afterStart task) where
  initial := List.cons_prefix_cons.2 ⟨rfl, hreaches.initial⟩
  eq_of_success := fun hsuccess => congrArg _ (hreaches.eq_of_success hsuccess)
  last_of_givenUp := fun hgivenUp => by
    obtain ⟨last, hlast, hawaited⟩ := hreaches.last_of_givenUp hgivenUp
    exact ⟨last, by rw [List.getLast?_cons, hlast, Option.getD_some], hawaited⟩
  length_outcomes := by
    rw [Action.awaited_cons_of_detached reached hdetached]
    exact hreaches.length_outcomes

theorem Reaches.afterOutcome {action : Action} {rest reached : List Action} {run : Run}
    (hreaches : Reaches rest reached run) (hawaited : action.detached = false)
    (outcome : Outcome) :
    Reaches (action :: rest) (action :: reached) (run.afterOutcome outcome) where
  initial := List.cons_prefix_cons.2 ⟨rfl, hreaches.initial⟩
  eq_of_success := fun hsuccess => congrArg _ (hreaches.eq_of_success hsuccess)
  last_of_givenUp := fun hgivenUp => by
    obtain ⟨last, hlast, hlastAwaited⟩ := hreaches.last_of_givenUp hgivenUp
    exact ⟨last, by rw [List.getLast?_cons, hlast, Option.getD_some], hlastAwaited⟩
  length_outcomes := by
    rw [Action.awaited_cons reached hawaited, List.length_cons]
    exact congrArg (· + 1) hreaches.length_outcomes

theorem reaches_givenUp {action : Action} (hawaited : action.detached = false)
    (rest : List Action) (outcome : Outcome) :
    Reaches (action :: rest) [action] (givenUp outcome) where
  initial := ⟨rest, rfl⟩
  eq_of_success := fun hsuccess => absurd hsuccess (by simp [givenUp])
  last_of_givenUp := fun _ => ⟨action, rfl, hawaited⟩
  length_outcomes := by
    rw [Action.awaited_cons [] hawaited]
    rfl

end Run

namespace Engine

/-- A run starts one task at its own depth for each detached action that it comes
to, and reports them in that order. -/
theorem exists_reached {engine : Engine} {depth : Nat} {context : Context}
    {actions : List Action} {acts : List Act} {run : Run}
    (hwalk : Script.Walk (engine.runList depth context actions) acts run) :
    ∃ reached, run.Reaches actions reached ∧
      acts.filterMap (Act.startedAt? depth) =
        (detachedJobs depth context reached run.outcomes).zip run.detached ∧
      (detachedJobs depth context reached run.outcomes).length = run.detached.length := by
  have hdeeper {context : Context} {action : Action} {own : List Act} {outcome : Outcome}
      (haction : Script.Walk (engine.runAction depth context action) own outcome) :
      own.filterMap (Act.startedAt? depth) = [] :=
    List.filterMap_eq_nil_iff.2 (Act.startedAt?_eq_none_of_deeper fun job hjob =>
      (starts_runAction engine depth context action own outcome haction job hjob).1)
  induction walk_runList_iff.1 hwalk with
  | nil => exact ⟨[], Run.reaches_nil, rfl, rfl⟩
  | @detached context action rest task acts run hdetached hrest ih =>
      obtain ⟨reached, hreaches, hstarted, hlength⟩ := ih hrest.walk
      refine ⟨action :: reached, hreaches.afterStart hdetached task, ?_, ?_⟩
      · rw [detachedJobs, if_pos hdetached]
        simpa [Act.startedAt?, Run.afterStart] using hstarted
      · rw [detachedJobs, if_pos hdetached]
        exact congrArg (· + 1) hlength
  | @givenUp context action rest own outcome hawaited hgivenUp haction =>
      refine ⟨[action], Run.reaches_givenUp hawaited rest outcome, ?_, ?_⟩
      · rw [hdeeper haction]
        simp [detachedJobs, hawaited]
      · simp [detachedJobs, hawaited, Run.givenUp]
  | @awaited context action rest own acts outcome run hawaited hgivenUp haction hrest ih =>
      obtain ⟨reached, hreaches, hstarted, hlength⟩ := ih hrest.walk
      refine ⟨action :: reached, hreaches.afterOutcome hawaited outcome, ?_, ?_⟩
      · rw [List.filterMap_append, hdeeper haction, List.nil_append, detachedJobs,
          if_neg (by simp [hawaited])]
        exact hstarted
      · rw [detachedJobs, if_neg (by simp [hawaited])]
        exact hlength

/-- Without its detached actions a list is run in the same way, but for the tasks
that it starts itself. -/
theorem walk_awaited {engine : Engine} {depth : Nat} {context : Context} {actions : List Action}
    {acts : List Act} {run : Run}
    (hwalk : Script.Walk (engine.runList depth context actions) acts run) :
    Script.Walk (engine.runList depth context (Action.awaited actions)) (Act.shed depth acts)
      { run with detached := [] } := by
  have hself {context : Context} {action : Action} {own : List Act} {outcome : Outcome}
      (haction : Script.Walk (engine.runAction depth context action) own outcome) :
      Act.shed depth own = own := Act.shed_eq_self fun job hjob =>
    (starts_runAction engine depth context action own outcome haction job hjob).1
  induction walk_runList_iff.1 hwalk with
  | nil => exact hwalk
  | @detached context action rest task acts run hdetached hrest ih =>
      rw [Action.awaited_cons_of_detached rest hdetached, Act.shed,
        List.filter_cons_of_neg (by simp [Act.startedAt?])]
      exact ih hrest.walk
  | @givenUp context action rest own outcome hawaited hgivenUp haction =>
      rw [Action.awaited_cons rest hawaited, hself haction]
      exact (ListWalk.givenUp hawaited hgivenUp haction).walk
  | @awaited context action rest own acts outcome run hawaited hgivenUp haction hrest ih =>
      rw [Action.awaited_cons rest hawaited, Act.shed_append, hself haction]
      have hlater := walk_runList_iff.1 (ih hrest.walk)
      exact (ListWalk.awaited hawaited hgivenUp haction hlater).walk

end Engine

namespace Script

/-- Where all replies are those that a function gives, two scripts do the same, but
for the names of tasks, and their results are related. -/
def Agree (reply : HttpRequest → HttpReply) (r : α → β → Prop) (s : Script α) (t : Script β) :
    Prop :=
  ∀ acts a others b, Walk s acts a → Walk t others b → Act.Honest reply acts →
    Act.Honest reply others → acts.map Act.unnamed = others.map Act.unnamed ∧ r a b

variable {reply : HttpRequest → HttpReply}

theorem agree_done {r : α → β → Prop} {a : α} {b : β} (hr : r a b) :
    Agree reply r (done a) (done b) := by
  intro acts result others other hwalk hother _ _
  obtain ⟨rfl, rfl⟩ := walk_done_iff.1 hwalk
  obtain ⟨rfl, rfl⟩ := walk_done_iff.1 hother
  exact ⟨rfl, hr⟩

theorem Agree.bind {p : α → β → Prop} {r : γ → δ → Prop} {s : Script α} {t : Script β}
    {f : α → Script γ} {g : β → Script δ} (hfirst : Agree reply p s t)
    (hsecond : ∀ a b, p a b → Agree reply r (f a) (g b)) :
    Agree reply r (s.bind f) (t.bind g) := by
  intro acts result others other hwalk hother hacts hothers
  obtain ⟨one, a, two, rfl, hone, htwo⟩ := walk_bind_iff.1 hwalk
  obtain ⟨three, b, four, rfl, hthree, hfour⟩ := walk_bind_iff.1 hother
  obtain ⟨hacts, hacts'⟩ := Act.honest_append_iff.1 hacts
  obtain ⟨hothers, hothers'⟩ := Act.honest_append_iff.1 hothers
  obtain ⟨hbefore, hmiddle⟩ := hfirst one a three b hone hthree hacts hothers
  obtain ⟨hafter, hresult⟩ := hsecond a b hmiddle two result four other htwo hfour hacts' hothers'
  refine ⟨?_, hresult⟩
  rw [List.map_append, List.map_append, hbefore, hafter]

theorem Agree.start {r : α → β → Prop} {job : Job} {f : TaskId → Script α} {g : TaskId → Script β}
    (hnext : ∀ i j, Agree reply r (f i) (g j)) :
    Agree reply r (Script.start job f) (Script.start job g) := by
  intro acts result others other hwalk hother hacts hothers
  obtain ⟨i, later, rfl, hlater⟩ := walk_start_iff.1 hwalk
  obtain ⟨j, latter, rfl, hlatter⟩ := walk_start_iff.1 hother
  obtain ⟨hafter, hresult⟩ :=
    hnext i j later result latter other hlater hlatter hacts.tail hothers.tail
  exact ⟨congrArg (Act.started job 0 :: ·) hafter, hresult⟩

/-- A script whose walks are all the same agrees with itself. -/
theorem agree_of_forall (reply : HttpRequest → HttpReply) {s : Script Unit} {told : List Act}
    (hall : ∀ acts result, Walk s acts result → acts = told) : Agree reply Eq s s := by
  intro acts result others other hwalk hother _ _
  rw [hall acts result hwalk, hall others other hother]
  exact ⟨rfl, rfl⟩

theorem agree_send (message : HttpRequest) : Agree reply Eq (send message) (send message) := by
  intro acts result others other hwalk hother hacts hothers
  obtain rfl := walk_send_iff.1 hwalk
  obtain rfl := walk_send_iff.1 hother
  obtain rfl := hacts message result (.head _)
  obtain rfl := hothers message other (.head _)
  exact ⟨rfl, rfl⟩

end Script

namespace Run

/-- Two runs that report the same, but for the names of tasks. -/
structure SameReport (run other : Run) : Prop where
  success : run.success = other.success
  outcomes : run.outcomes = other.outcomes
  detached : run.detached.length = other.detached.length

end Run

namespace Engine

variable (reply : HttpRequest → HttpReply)

theorem agree_attempt (engine : Engine) (depth : Nat) (context : Context) (action : Action) :
    Script.Agree reply Eq (engine.attempt depth context action)
      (engine.attempt depth context action) := by
  rw [attempt]
  split
  · exact Script.agree_done rfl
  · split
    · exact Script.agree_done rfl
    · have hwait : Script.Agree reply Eq (Script.wait (action.delay.getD 0))
          (Script.wait (action.delay.getD 0)) :=
        Script.agree_of_forall reply fun _ _ => Script.walk_wait_iff.1
      apply hwait.bind
      rintro _ _ -
      cases hkind : action.kind.method? with
      | none =>
          rw [act_eq_of_method?_eq_none hkind]
          have hperform : Script.Agree reply Eq
              (Script.performAll (engine.effects context action.kind))
              (Script.performAll (engine.effects context action.kind)) :=
            Script.agree_of_forall reply fun _ _ => Script.walk_performAll_iff.1
          exact hperform.bind fun _ _ _ => Script.agree_done rfl
      | some method =>
          cases hcall : action.kind with
          | callApi path method body headers =>
              apply (Script.agree_send _).bind
              rintro reply _ rfl
              exact Script.agree_done rfl
          | _ => simp [hcall, ActionKind.method?] at hkind

mutual

/-- An action does and becomes the same whenever it gets the same replies. -/
theorem agree_runAction (engine : Engine) (depth : Nat) (context : Context) (action : Action) :
    Script.Agree reply Eq (engine.runAction depth context action)
      (engine.runAction depth context action) := by
  match action with
  | ⟨kind, condition, delay, detached, onSuccess, onError⟩ =>
    have hsuccess := fun context => agree_runBranch engine (depth + 1) context onSuccess
    have herror := fun context => agree_runBranch engine (depth + 1) context onError
    rw [runAction_eq]
    apply (agree_attempt reply engine depth context _).bind
    rintro outcome _ rfl
    refine Script.Agree.bind (p := Eq) ?_ fun _ _ _ => Script.agree_done rfl
    match outcome with
    | .success (some answer) => exact hsuccess _
    | .failure (.request error) => exact herror _
    | .success none | .failure (.tooDeep _) | .failure .unknownKind | .failure (.aborted _) =>
        exact Script.agree_done rfl
termination_by structural action

theorem agree_runBranch (engine : Engine) (depth : Nat) (context : Context)
    (actions : Option (List Action)) :
    Script.Agree reply Eq (engine.runBranch depth context actions)
      (engine.runBranch depth context actions) := by
  match actions with
  | none => exact Script.agree_done rfl
  | some actions =>
      have hlist := agree_runList engine depth context actions
      exact hlist.bind fun _ _ _ => Script.agree_done rfl
termination_by structural actions

/-- A list does and reports the same whenever it gets the same replies, but for the
names of tasks. -/
theorem agree_runList (engine : Engine) (depth : Nat) (context : Context)
    (actions : List Action) :
    Script.Agree reply Run.SameReport (engine.runList depth context actions)
      (engine.runList depth context actions) := by
  match actions with
  | [] =>
      rw [runList_nil]
      exact Script.agree_done ⟨rfl, rfl, rfl⟩
  | action :: rest =>
      have haction := agree_runAction engine depth context action
      have hrest := fun context => agree_runList engine depth context rest
      cases hdetached : action.detached with
      | true =>
          rw [runList_detached _ _ _ _ hdetached]
          refine .start fun i j => (hrest context).bind fun run other hsame => ?_
          exact Script.agree_done ⟨hsame.success, hsame.outcomes, congrArg (· + 1) hsame.detached⟩
      | false =>
          rw [runList_awaited _ _ _ _ hdetached]
          apply haction.bind
          rintro outcome _ rfl
          split
          · exact Script.agree_done ⟨rfl, rfl, rfl⟩
          · refine (hrest _).bind fun run other hsame => ?_
            exact Script.agree_done ⟨hsame.success, congrArg (outcome :: ·) hsame.outcomes,
              hsame.detached⟩
termination_by structural actions

end

/-- A run without its detached actions does and reports the same. -/
theorem sameReport_of_walk_awaited {reply : HttpRequest → HttpReply} {engine : Engine}
    {depth : Nat} {context : Context} {actions : List Action} {acts others : List Act}
    {run shed : Run}
    (hwalk : Script.Walk (engine.runList depth context actions) acts run)
    (hshed : Script.Walk (engine.runList depth context (Action.awaited actions)) others shed)
    (hacts : Act.Honest reply acts) (hothers : Act.Honest reply others) :
    (Act.shed depth acts).map Act.unnamed = others.map Act.unnamed ∧
      Run.SameReport { run with detached := [] } shed :=
  agree_runList reply engine depth context _ _ _ _ _ (walk_awaited hwalk) hshed (hacts.shed depth)
    hothers

end Engine

end LivePage
