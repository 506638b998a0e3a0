import LivePage.Proofs.Run.Conduct

/-!
# Started tasks

Which tasks a run starts, and which of them it reports.  A run over a list
reports the tasks of the detached actions of that very list.  The tasks that are
started inside branches stand deeper and are not reported.
-/

namespace LivePage

namespace Act

@[simp]
theorem jobs_append (first second : List Act) :
    jobs (first ++ second) = jobs first ++ jobs second :=
  List.filterMap_append ..

/-- The task that an act starts at a depth. -/
def taskAt? (depth : Nat) : Act → Option TaskId
  | started job task => if job.depth = depth then some task else none
  | _ => none

/-- The tasks that some acts start at a depth, in order. -/
def tasksAt (depth : Nat) (acts : List Act) : List TaskId :=
  acts.filterMap (taskAt? depth)

@[simp]
theorem tasksAt_append (depth : Nat) (first second : List Act) :
    tasksAt depth (first ++ second) = tasksAt depth first ++ tasksAt depth second :=
  List.filterMap_append ..

theorem tasksAt_eq_nil {depth : Nat} {acts : List Act}
    (hdeeper : ∀ job ∈ jobs acts, depth < job.depth) : tasksAt depth acts = [] := by
  apply List.filterMap_eq_nil_iff.2
  intro act hact
  cases act with
  | started job task =>
      have hjob := hdeeper job (List.mem_filterMap.2 ⟨_, hact, rfl⟩)
      rw [taskAt?, if_neg (Nat.ne_of_gt hjob)]
  | _ => rfl

end Act

namespace Script

/-- All jobs that the script may start satisfy a predicate. -/
def Starts (p : Job → Prop) (s : Script α) : Prop :=
  ∀ acts result, Walk s acts result → ∀ job ∈ Act.jobs acts, p job

/-- The jobs that a script starts are something that it does. -/
theorem starts_iff_does {p : Job → Prop} {s : Script α} :
    s.Starts p ↔ s.Does fun act => ∀ job, act.job? = some job → p job := by
  simp only [Starts, Does, Act.jobs, List.mem_filterMap]
  constructor
  · intro hstarts acts result hwalk act hact job hjob
    exact hstarts acts result hwalk job ⟨act, hact, hjob⟩
  · rintro hdoes acts result hwalk job ⟨act, hact, hjob⟩
    exact hdoes acts result hwalk act hact job hjob

theorem starts_done (p : Job → Prop) (a : α) : (done a).Starts p :=
  starts_iff_does.2 (does_done _ a)

theorem Starts.mono {p q : Job → Prop} {s : Script α} (hstarts : s.Starts p)
    (himp : ∀ job, p job → q job) : s.Starts q :=
  fun acts result hwalk job hjob => himp job (hstarts acts result hwalk job hjob)

theorem Starts.bind {p : Job → Prop} {s : Script α} {f : α → Script β} (hfirst : s.Starts p)
    (hsecond : ∀ a, (f a).Starts p) : (s.bind f).Starts p := by
  rw [starts_iff_does] at hfirst ⊢
  exact hfirst.bind fun a => starts_iff_does.1 (hsecond a)

theorem Starts.map {p : Job → Prop} {s : Script α} {f : α → β} (hstarts : s.Starts p) :
    (s.bind fun a => .done (f a)).Starts p :=
  hstarts.bind fun a => starts_done p (f a)

theorem Starts.start {p : Job → Prop} {job : Job} {next : TaskId → Script α} (hjob : p job)
    (hnext : ∀ task, (next task).Starts p) : (start job next).Starts p := by
  rw [starts_iff_does]
  refine .start (fun task other hother => ?_) fun task => starts_iff_does.1 (hnext task)
  rwa [← Option.some.inj hother]

/-- The steps of a script start such jobs, and so does what is left of it. -/
theorem Starts.of_leads {p : Job → Prop} {s rest : Script α} {acts : List Act}
    (hstarts : s.Starts p) (hleads : Leads s acts rest) :
    (∀ job ∈ Act.jobs acts, p job) ∧ rest.Starts p := by
  rw [starts_iff_does] at hstarts ⊢
  obtain ⟨hacts, hrest⟩ := hstarts.of_leads hleads
  refine ⟨fun job hjob => ?_, hrest⟩
  obtain ⟨act, hact, hof⟩ := List.mem_filterMap.1 hjob
  exact hacts act hact job hof

end Script

namespace Action

mutual

/-- No action inside the branches of an action is detached. -/
def isPlain : Action → Bool
  | ⟨_, _, _, _, onSuccess, onError⟩ => isPlainBranch onSuccess && isPlainBranch onError

def isPlainBranch : Option (List Action) → Bool
  | none => true
  | some actions => isPlainList actions

def isPlainList : List Action → Bool
  | [] => true
  | action :: rest => !action.detached && isPlain action && isPlainList rest

end

theorem isPlainList_eq_false {actions : List Action} {action : Action} (hmem : action ∈ actions)
    (hnot : action.detached = true ∨ action.isPlain = false) : isPlainList actions = false := by
  induction actions with
  | nil => exact absurd hmem List.not_mem_nil
  | cons first rest ih =>
      rw [isPlainList]
      rcases List.mem_cons.1 hmem with rfl | hrest
      · rcases hnot with hnot | hnot <;> simp [hnot]
      · simp [ih hrest]

end Action

namespace Engine

theorem starts_attempt (p : Job → Prop) (engine : Engine) (depth : Nat) (context : Context)
    (action : Action) : (engine.attempt depth context action).Starts p := by
  intro acts result hwalk job hjob
  obtain ⟨act, hact, hstarts⟩ := List.mem_filterMap.1 hjob
  obtain ⟨ms, rfl⟩ | ⟨message, reply, rfl⟩ | ⟨effect, -, rfl⟩ :=
    (walk_attempt_iff.1 hwalk).act_cases hact
  · cases hstarts
  · cases hstarts
  · cases hstarts

mutual

/-- An action starts tasks in its branches only. -/
theorem starts_runAction (engine : Engine) (depth : Nat) (context : Context) (action : Action) :
    (engine.runAction depth context action).Starts fun job =>
      depth < job.depth ∧ action.isPlain = false := by
  match action with
  | ⟨kind, condition, delay, detached, onSuccess, onError⟩ =>
    have hsuccess := fun context => starts_runBranch engine (depth + 1) context onSuccess
    have herror := fun context => starts_runBranch engine (depth + 1) context onError
    rw [runAction_eq]
    refine (starts_attempt _ engine depth context _).bind fun outcome => Script.Starts.map ?_
    match outcome with
    | .success (some answer) =>
        exact (hsuccess _).mono fun job hjob => ⟨hjob.1, by simp [Action.isPlain, hjob.2]⟩
    | .failure (.request error) =>
        exact (herror _).mono fun job hjob => ⟨hjob.1, by simp [Action.isPlain, hjob.2]⟩
    | .success none | .failure (.tooDeep _) | .failure .unknownKind | .failure (.aborted _) =>
        exact Script.starts_done _ ()
termination_by structural action

theorem starts_runBranch (engine : Engine) (depth : Nat) (context : Context)
    (actions : Option (List Action)) :
    (engine.runBranch depth context actions).Starts fun job =>
      depth ≤ job.depth ∧ Action.isPlainBranch actions = false := by
  match actions with
  | none => exact Script.starts_done _ ()
  | some actions =>
      refine (starts_runList engine depth context actions).map.mono fun job hjob => ?_
      rcases hjob with ⟨hdepth, hmem, hdetached⟩ | ⟨hdepth, action, hmem, hplain⟩
      · exact ⟨Nat.le_of_eq hdepth.symm, Action.isPlainList_eq_false hmem (.inl hdetached)⟩
      · exact ⟨Nat.le_of_lt hdepth, Action.isPlainList_eq_false hmem (.inr hplain)⟩
termination_by structural actions

/-- A list starts tasks for its own detached actions, and inside of branches. -/
theorem starts_runList (engine : Engine) (depth : Nat) (context : Context)
    (actions : List Action) :
    (engine.runList depth context actions).Starts fun job =>
      (job.depth = depth ∧ job.action ∈ actions ∧ job.action.detached = true) ∨
        (depth < job.depth ∧ ∃ action ∈ actions, action.isPlain = false) := by
  match actions with
  | [] =>
      rw [runList_nil]
      exact Script.starts_done _ _
  | action :: rest =>
      have haction := starts_runAction engine depth context action
      have hrest := fun context => starts_runList engine depth context rest
      have hlater (context : Context) :
          (engine.runList depth context rest).Starts fun job =>
            (job.depth = depth ∧ job.action ∈ action :: rest ∧ job.action.detached = true) ∨
              (depth < job.depth ∧ ∃ other ∈ action :: rest, other.isPlain = false) := by
        refine (hrest context).mono fun job hjob => ?_
        rcases hjob with ⟨hdepth, hmem, hdetached⟩ | ⟨hdepth, other, hmem, hplain⟩
        · exact .inl ⟨hdepth, .tail _ hmem, hdetached⟩
        · exact .inr ⟨hdepth, other, .tail _ hmem, hplain⟩
      cases hdetached : action.detached with
      | true =>
          rw [runList_detached _ _ _ _ hdetached]
          refine Script.Starts.start (.inl ⟨rfl, .head rest, hdetached⟩) fun task => ?_
          exact (hlater context).map
      | false =>
          rw [runList_awaited _ _ _ _ hdetached]
          refine (haction.mono fun job hjob => ?_).bind fun outcome => ?_
          · exact .inr ⟨hjob.1, action, .head rest, hjob.2⟩
          · split
            · exact Script.starts_done _ _
            · exact (hlater _).map
termination_by structural actions

end

/-- A run reports the tasks of the detached actions of its own list, and no
others. -/
theorem tasksAt_of_walk_runList {engine : Engine} {depth : Nat} {context : Context}
    {actions : List Action} {acts : List Act} {run : Run}
    (hwalk : Script.Walk (engine.runList depth context actions) acts run) :
    Act.tasksAt depth acts = run.detached := by
  have hdeeper {context : Context} {action : Action} {own : List Act} {outcome : Outcome}
      (haction : Script.Walk (engine.runAction depth context action) own outcome) :
      Act.tasksAt depth own = [] := Act.tasksAt_eq_nil fun job hjob =>
    (starts_runAction engine depth context action own outcome haction job hjob).1
  induction walk_runList_iff.1 hwalk with
  | nil => rfl
  | detached hdetached hrest ih =>
      rw [Run.afterStart, ← ih hrest.walk]
      simp [Act.tasksAt, Act.taskAt?]
  | givenUp _ _ haction => exact hdeeper haction
  | awaited _ _ haction hrest ih =>
      rw [Act.tasksAt_append, hdeeper haction, List.nil_append]
      exact ih hrest.walk

end Engine

end LivePage
