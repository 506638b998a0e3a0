import LivePage.Proofs.Run.Starts
import LivePage.Run.Session

/-!
# Reported tasks

What a page that is loaded, or that a trigger record is dispatched to, reports to
its surroundings: the tasks that were started at the top of an action list, in
their order, and none of those that were started inside branches.
-/

namespace LivePage

namespace Script

/-- The script reports exactly the tasks that it starts outside of branches, and
all jobs that it starts satisfy a predicate. -/
def Reports (p : Job → Prop) (reported : α → List TaskId) (s : Script α) : Prop :=
  ∀ acts result, Walk s acts result →
    Act.tasksAt 0 acts = reported result ∧ ∀ job ∈ Act.jobs acts, p job

theorem Reports.starts {p : Job → Prop} {reported : α → List TaskId} {s : Script α}
    (hreports : s.Reports p reported) : s.Starts p :=
  fun acts result hwalk => (hreports acts result hwalk).2

theorem reports_done {p : Job → Prop} {reported : α → List TaskId} {a : α}
    (hnone : reported a = []) : (done a).Reports p reported := by
  intro acts result hwalk
  obtain ⟨rfl, rfl⟩ := walk_done_iff.1 hwalk
  exact ⟨hnone.symm, fun job hjob => absurd hjob List.not_mem_nil⟩

theorem Reports.bind {p : Job → Prop} {first : α → List TaskId} {reported : β → List TaskId}
    {s : Script α} {f : α → Script β} (hfirst : s.Reports p first)
    (hsecond : ∀ a acts result, Walk (f a) acts result →
      first a ++ Act.tasksAt 0 acts = reported result ∧ ∀ job ∈ Act.jobs acts, p job) :
    (s.bind f).Reports p reported := by
  intro acts result hwalk
  obtain ⟨one, middle, other, rfl, hone, hother⟩ := walk_bind_iff.1 hwalk
  obtain ⟨htasks, hjobs⟩ := hfirst one middle hone
  obtain ⟨htasks', hjobs'⟩ := hsecond middle other result hother
  refine ⟨by rw [Act.tasksAt_append, htasks, htasks'], fun job hjob => ?_⟩
  rw [Act.jobs_append] at hjob
  rcases List.mem_append.1 hjob with hjob | hjob
  · exact hjobs job hjob
  · exact hjobs' job hjob

theorem Reports.map {p : Job → Prop} {reported : β → List TaskId} {s : Script α} {f : α → β}
    (hreports : s.Reports p fun a => reported (f a)) : (f <$> s).Reports p reported := by
  apply Reports.bind hreports
  intro a acts result hwalk
  obtain ⟨rfl, rfl⟩ := walk_done_iff.1 hwalk
  exact ⟨List.append_nil _, fun job hjob => absurd hjob List.not_mem_nil⟩

theorem Reports.perform {p : Job → Prop} {reported : α → List TaskId} {effect : Effect}
    {next : Script α} (hreports : next.Reports p reported) :
    (Script.perform effect next).Reports p reported := by
  intro acts result hwalk
  obtain ⟨later, rfl, hlater⟩ := walk_perform_iff.1 hwalk
  exact hreports later result hlater

theorem Reports.observe {p : Job → Prop} {reported : α → List TaskId}
    {next : PageState → Script α} (hreports : ∀ page, (next page).Reports p reported) :
    (Script.observe next).Reports p reported := by
  intro acts result hwalk
  obtain ⟨page, later, rfl, hlater⟩ := walk_observe_iff.1 hwalk
  exact hreports page later result hlater

end Script

/-- The job of an action of some lists, or one inside a branch of such an
action. -/
def Job.From (actions : List Action) (job : Job) : Prop :=
  (job.depth = 0 ∧ job.action ∈ actions) ∨ ∃ action ∈ actions, action.isPlain = false

theorem Job.From.mono {actions larger : List Action} {job : Job} (hfrom : job.From actions)
    (hsubset : actions ⊆ larger) : job.From larger := by
  rcases hfrom with ⟨hdepth, hmem⟩ | ⟨action, hmem, hplain⟩
  · exact .inl ⟨hdepth, hsubset hmem⟩
  · exact .inr ⟨action, hsubset hmem, hplain⟩

/-- The tasks that are reported by a run that may not have taken place. -/
def Run.reported (run : Option Run) : List TaskId :=
  run.toList.flatMap Run.detached

namespace Engine

theorem reports_runList (engine : Engine) (context : Context) (actions : List Action) :
    (engine.runList 0 context actions).Reports (Job.From actions) Run.detached := by
  intro acts run hwalk
  refine ⟨tasksAt_of_walk_runList hwalk, fun job hjob => ?_⟩
  rcases starts_runList engine 0 context actions acts run hwalk job hjob with
    ⟨hdepth, hmem, -⟩ | ⟨-, action, hmem, hplain⟩
  · exact .inl ⟨hdepth, hmem⟩
  · exact .inr ⟨action, hmem, hplain⟩

theorem reports_fireBinding (engine : Engine) (binding : Binding) (payload : Payload) :
    (engine.fireBinding binding payload).Reports (Job.From binding.actions) Run.reported := by
  rw [fireBinding]
  split
  · exact Script.reports_done rfl
  · refine .observe fun page => ?_
    dsimp only
    split
    · refine .map fun acts run hwalk => ?_
      obtain ⟨htasks, hjobs⟩ := reports_runList engine _ _ acts run hwalk
      exact ⟨by simpa [Run.reported] using htasks, hjobs⟩
    · exact Script.reports_done rfl

end Engine

namespace Handler

/-- The actions of all bindings of a handler. -/
def actions (handler : Handler) : List Action :=
  handler.bindings.flatMap Binding.actions

theorem reports_fire (handler : Handler) (engine : Engine) (trigger : Trigger)
    (payload : Payload) :
    (handler.fire engine trigger payload).Reports (Job.From handler.actions) Run.reported := by
  rw [fire]
  split
  · exact Script.reports_done rfl
  · next binding hbinding =>
      intro acts run hwalk
      obtain ⟨htasks, hjobs⟩ := engine.reports_fireBinding binding payload acts run hwalk
      refine ⟨htasks, fun job hjob => (hjobs job hjob).mono ?_⟩
      exact fun action haction =>
        List.mem_flatMap.2 ⟨binding, List.mem_of_find?_eq_some hbinding, haction⟩

theorem reports_handle (handler : Handler) (engine : Engine) (trigger : Trigger)
    (payload : Payload) :
    (handler.handle engine trigger payload).Reports (Job.From handler.actions) Run.reported := by
  cases trigger with
  | onClick => exact handler.reports_fire engine .onClick payload
  | onChange => exact .perform (handler.reports_fire engine .onChange payload)
  | onSubmit => exact .perform (handler.reports_fire engine .onSubmit _)
  | onLoad => exact handler.reports_fire engine .onLoad {}

end Handler

namespace Session

/-- The actions of all handlers of a page. -/
def actions (session : Session) : List Action :=
  session.handlers.entries.flatMap fun entry => entry.2.actions

theorem reports_loadAll (engine : Engine) (handlers : List (String × Handler)) :
    (loadAll engine handlers).Reports (Job.From (handlers.flatMap fun entry => entry.2.actions))
      fun runs => runs.flatMap fun run => run.2.detached := by
  induction handlers with
  | nil => exact Script.reports_done rfl
  | cons entry rest ih =>
      obtain ⟨id, handler⟩ := entry
      have hfirst : (handler.onLoad engine).Reports
          (Job.From (((id, handler) :: rest).flatMap fun entry => entry.2.actions))
          Run.reported := by
        intro acts run hwalk
        obtain ⟨htasks, hjobs⟩ := handler.reports_fire engine .onLoad {} acts run hwalk
        refine ⟨htasks, fun job hjob => (hjobs job hjob).mono ?_⟩
        rw [List.flatMap_cons]
        exact List.subset_append_left ..
      apply Script.Reports.bind hfirst
      intro run acts runs hwalk
      obtain ⟨others, hone, rfl⟩ := Script.walk_map_iff.1 hwalk
      obtain ⟨htasks, hjobs⟩ := ih _ others hone
      rw [htasks]
      refine ⟨?_, fun job hjob => (hjobs job hjob).mono ?_⟩
      · rw [List.flatMap_append, List.flatMap_map]
        rfl
      · rw [List.flatMap_cons]
        exact List.subset_append_right ..

/-- Loading a page reports the tasks of the detached actions of its lists. -/
theorem reports_load (session : Session) :
    session.load.Reports (Job.From session.actions)
      fun runs => runs.flatMap fun run => run.2.detached :=
  reports_loadAll session.engine session.handlers.entries

/-- The tasks that are reported where a record is dispatched. -/
def reported : Except DispatchError (Option Run) → List TaskId
  | .ok run => Run.reported run
  | .error _ => []

theorem reports_dispatch (session : Session) (record : TriggerRecord) :
    (session.dispatch record).Reports (Job.From session.actions) reported := by
  rw [dispatch]
  split
  · exact Script.reports_done rfl
  · next handler hhandler =>
      refine .map fun acts run hwalk => ?_
      obtain ⟨htasks, hjobs⟩ :=
        handler.reports_handle session.engine record.trigger record.payload acts run hwalk
      refine ⟨htasks, fun job hjob => (hjobs job hjob).mono ?_⟩
      exact fun action haction =>
        List.mem_flatMap.2 ⟨_, Dict.mem_of_find? hhandler, haction⟩

theorem reports_dispatchValue (session : Session) (raw : Json) :
    (session.dispatchValue raw).Reports (Job.From session.actions) reported := by
  rw [dispatchValue]
  split
  · exact Script.reports_done rfl
  · exact session.reports_dispatch _

end Session

end LivePage
