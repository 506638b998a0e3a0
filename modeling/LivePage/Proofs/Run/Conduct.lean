import LivePage.Proofs.Run.Sequence

/-!
# What actions do

A predicate on single acts holds of everything that a script does if it holds of
what each of its parts does.  For actions it is enough that it holds of waiting,
of requests, of the effects of the kinds that occur in their trees, and of
starting tasks with actions of those kinds.
-/

namespace LivePage

namespace Script

/-- Whatever the script does satisfies a predicate. -/
def Does (p : Act → Prop) (s : Script α) : Prop :=
  ∀ acts result, Walk s acts result → ∀ act ∈ acts, p act

theorem does_done (p : Act → Prop) (a : α) : (done a).Does p := by
  intro acts result hwalk act hact
  rw [(walk_done_iff.1 hwalk).1] at hact
  exact absurd hact List.not_mem_nil

theorem Does.bind {p : Act → Prop} {s : Script α} {f : α → Script β} (hfirst : s.Does p)
    (hsecond : ∀ a, (f a).Does p) : (s.bind f).Does p := by
  intro acts result hwalk act hact
  obtain ⟨one, middle, other, rfl, hone, hother⟩ := walk_bind_iff.1 hwalk
  rcases List.mem_append.1 hact with hact | hact
  · exact hfirst one middle hone act hact
  · exact hsecond middle other result hother act hact

theorem Does.map {p : Act → Prop} {s : Script α} {f : α → β} (hdoes : s.Does p) :
    (s.bind fun a => .done (f a)).Does p :=
  hdoes.bind fun a => does_done p (f a)

theorem Does.start {p : Act → Prop} {job : Job} {next : TaskId → Script α}
    (hstarted : ∀ task, p (.started job task)) (hnext : ∀ task, (next task).Does p) :
    (start job next).Does p := by
  intro acts result hwalk act hact
  obtain ⟨task, later, rfl, hlater⟩ := walk_start_iff.1 hwalk
  rcases List.mem_cons.1 hact with rfl | hact
  · exact hstarted task
  · exact hnext task later result hlater act hact

/-- The steps of a script satisfy the predicate, and so does what is left of it. -/
theorem Does.of_leads {p : Act → Prop} {s rest : Script α} {acts : List Act} (hdoes : s.Does p)
    (hleads : Leads s acts rest) : (∀ act ∈ acts, p act) ∧ rest.Does p := by
  have hwhole (later : List Act) (result : α) (hwalk : Walk rest later result) :
      ∀ act ∈ acts ++ later, p act :=
    hdoes _ result (hleads.walk hwalk)
  constructor
  · obtain ⟨later, result, hwalk⟩ := exists_walk rest
    exact fun act hact => hwhole later result hwalk act (List.mem_append_left _ hact)
  · exact fun later result hwalk act hact =>
      hwhole later result hwalk act (List.mem_append_right _ hact)

end Script

namespace Action

mutual

/-- The kinds of all actions of a tree. -/
def kinds : Action → List ActionKind
  | ⟨kind, _, _, _, onSuccess, onError⟩ => kind :: (branchKinds onSuccess ++ branchKinds onError)

def branchKinds : Option (List Action) → List ActionKind
  | none => []
  | some actions => listKinds actions

/-- The kinds of all actions of a list of trees. -/
def listKinds : List Action → List ActionKind
  | [] => []
  | action :: rest => kinds action ++ listKinds rest

end

end Action

namespace Engine

/-- A predicate that holds of whatever actions do, if their trees are made of such
kinds. -/
structure Covers (engine : Engine) (k : ActionKind → Prop) (p : Act → Prop) : Prop where
  paused : ∀ ms, p (.paused ms)
  asked : ∀ message reply, p (.asked message reply)
  performed : ∀ kind, k kind → ∀ context, ∀ effect ∈ engine.effects context kind,
    p (.performed effect)
  started : ∀ job, (∀ kind ∈ job.action.kinds, k kind) → ∀ task, p (.started job task)

variable {engine : Engine} {k : ActionKind → Prop} {p : Act → Prop}

theorem Covers.does_attempt (hcovers : engine.Covers k p) (depth : Nat) (context : Context)
    {action : Action} (hkind : k action.kind) :
    (engine.attempt depth context action).Does p := by
  intro acts result hwalk act hact
  obtain ⟨ms, rfl⟩ | ⟨message, reply, rfl⟩ | ⟨effect, heffect, rfl⟩ :=
    (walk_attempt_iff.1 hwalk).act_cases hact
  · exact hcovers.paused ms
  · exact hcovers.asked message reply
  · exact hcovers.performed _ hkind _ effect heffect

mutual

/-- Whatever an action does satisfies the predicate. -/
theorem Covers.does_runAction (hcovers : engine.Covers k p) (depth : Nat) (context : Context)
    (action : Action) (hkinds : ∀ kind ∈ action.kinds, k kind) :
    (engine.runAction depth context action).Does p := by
  match action with
  | ⟨kind, condition, delay, detached, onSuccess, onError⟩ =>
    simp only [Action.kinds, List.forall_mem_cons, List.forall_mem_append] at hkinds
    obtain ⟨hkind, honSuccess, honError⟩ := hkinds
    have hsuccess := fun context => hcovers.does_runBranch (depth + 1) context onSuccess honSuccess
    have herror := fun context => hcovers.does_runBranch (depth + 1) context onError honError
    rw [runAction_eq]
    apply (hcovers.does_attempt depth context hkind).bind
    intro outcome
    apply Script.Does.map
    match outcome with
    | .success (some answer) => exact hsuccess _
    | .failure (.request error) => exact herror _
    | .success none | .failure (.tooDeep _) | .failure .unknownKind | .failure (.aborted _) =>
        exact Script.does_done p ()
termination_by structural action

theorem Covers.does_runBranch (hcovers : engine.Covers k p) (depth : Nat) (context : Context)
    (actions : Option (List Action)) (hkinds : ∀ kind ∈ Action.branchKinds actions, k kind) :
    (engine.runBranch depth context actions).Does p := by
  match actions with
  | none => exact Script.does_done p ()
  | some actions =>
      have hlist := hcovers.does_runList depth context actions hkinds
      exact hlist.map
termination_by structural actions

/-- Whatever a list of actions does satisfies the predicate. -/
theorem Covers.does_runList (hcovers : engine.Covers k p) (depth : Nat) (context : Context)
    (actions : List Action) (hkinds : ∀ kind ∈ Action.listKinds actions, k kind) :
    (engine.runList depth context actions).Does p := by
  match actions with
  | [] =>
      rw [runList_nil]
      exact Script.does_done p _
  | action :: rest =>
      simp only [Action.listKinds, List.forall_mem_append] at hkinds
      have haction := hcovers.does_runAction depth context action hkinds.1
      have hrest := fun context => hcovers.does_runList depth context rest hkinds.2
      cases hdetached : action.detached with
      | true =>
          rw [runList_detached _ _ _ _ hdetached]
          exact .start (hcovers.started _ hkinds.1) fun task => (hrest context).map
      | false =>
          rw [runList_awaited _ _ _ _ hdetached]
          apply haction.bind
          intro outcome
          split
          · exact Script.does_done p _
          · exact (hrest _).map
termination_by structural actions

end

/-- Whatever the task of a job does satisfies the predicate, if starting the job
does. -/
theorem Covers.does_runJob (hcovers : engine.Covers k p) {job : Job}
    (hkinds : ∀ kind ∈ job.action.kinds, k kind) : (engine.runJob job).Does p :=
  hcovers.does_runAction job.depth job.context job.action hkinds

end Engine

end LivePage
