import LivePage.Run.Script

/-!
# Walks through scripts

A walk is one way in which a script can go: what it does and what it is answered,
step by step, up to its result.  A script offers a walk for every page that it
may see, every reply that it may get and every name that a task may be given, so
what holds of all walks of a script holds in all surroundings and under every
schedule.
-/

namespace LivePage

/-- One step of a walk, with the answer that the script got. -/
inductive Act where
  | performed (effect : Effect)
  | observed (page : PageState)
  | paused (ms : Nat)
  | asked (request : HttpRequest) (reply : HttpReply)
  | started (job : Job) (task : TaskId)

/-- The job that an act starts. -/
def Act.job? : Act → Option Job
  | started job _ => some job
  | _ => none

/-- The jobs that some acts start, in order. -/
def Act.jobs (acts : List Act) : List Job :=
  acts.filterMap job?

/-- The job and the task that an act starts. -/
def Act.started? : Act → Option (Job × TaskId)
  | started job task => some (job, task)
  | _ => none

/-- The surroundings give the same answers in two steps that both need one. -/
def Act.SameAnswer : Act → Act → Prop
  | .observed page, .observed other => page = other
  | .asked _ reply, .asked _ other => reply = other
  | .started _ task, .started _ other => task = other
  | _, _ => True

/-- As far as both go, two walks are given the same answers. -/
def Act.SameAnswers (acts others : List Act) : Prop :=
  ∀ pair ∈ acts.zip others, pair.1.SameAnswer pair.2

namespace Script

/-- The ways in which a script can go. -/
inductive Walk : Script α → List Act → α → Prop where
  | done {result : α} : Walk (.done result) [] result
  | perform {effect : Effect} {next : Script α} {acts : List Act} {result : α} :
      Walk next acts result → Walk (.perform effect next) (.performed effect :: acts) result
  | observe {next : PageState → Script α} {page : PageState} {acts : List Act} {result : α} :
      Walk (next page) acts result → Walk (.observe next) (.observed page :: acts) result
  | pause {ms : Nat} {next : Script α} {acts : List Act} {result : α} :
      Walk next acts result → Walk (.pause ms next) (.paused ms :: acts) result
  | request {message : HttpRequest} {next : HttpReply → Script α} {reply : HttpReply}
      {acts : List Act} {result : α} :
      Walk (next reply) acts result →
        Walk (.request message next) (.asked message reply :: acts) result
  | start {job : Job} {next : TaskId → Script α} {task : TaskId} {acts : List Act} {result : α} :
      Walk (next task) acts result → Walk (.start job next) (.started job task :: acts) result

@[simp]
theorem walk_done_iff {a result : α} {acts : List Act} :
    Walk (.done a) acts result ↔ acts = [] ∧ result = a := by
  constructor
  · intro h
    cases h
    exact ⟨rfl, rfl⟩
  · rintro ⟨rfl, rfl⟩
    exact .done

@[simp]
theorem walk_perform_iff {effect : Effect} {next : Script α} {acts : List Act} {result : α} :
    Walk (.perform effect next) acts result ↔
      ∃ later, acts = .performed effect :: later ∧ Walk next later result := by
  constructor
  · intro h
    cases h with
    | perform h => exact ⟨_, rfl, h⟩
  · rintro ⟨later, rfl, h⟩
    exact .perform h

@[simp]
theorem walk_observe_iff {next : PageState → Script α} {acts : List Act} {result : α} :
    Walk (.observe next) acts result ↔
      ∃ page later, acts = .observed page :: later ∧ Walk (next page) later result := by
  constructor
  · intro h
    cases h with
    | observe h => exact ⟨_, _, rfl, h⟩
  · rintro ⟨page, later, rfl, h⟩
    exact .observe h

@[simp]
theorem walk_pause_iff {ms : Nat} {next : Script α} {acts : List Act} {result : α} :
    Walk (.pause ms next) acts result ↔
      ∃ later, acts = .paused ms :: later ∧ Walk next later result := by
  constructor
  · intro h
    cases h with
    | pause h => exact ⟨_, rfl, h⟩
  · rintro ⟨later, rfl, h⟩
    exact .pause h

@[simp]
theorem walk_request_iff {message : HttpRequest} {next : HttpReply → Script α}
    {acts : List Act} {result : α} :
    Walk (.request message next) acts result ↔
      ∃ reply later, acts = .asked message reply :: later ∧ Walk (next reply) later result := by
  constructor
  · intro h
    cases h with
    | request h => exact ⟨_, _, rfl, h⟩
  · rintro ⟨reply, later, rfl, h⟩
    exact .request h

@[simp]
theorem walk_start_iff {job : Job} {next : TaskId → Script α} {acts : List Act} {result : α} :
    Walk (.start job next) acts result ↔
      ∃ task later, acts = .started job task :: later ∧ Walk (next task) later result := by
  constructor
  · intro h
    cases h with
    | start h => exact ⟨_, _, rfl, h⟩
  · rintro ⟨task, later, rfl, h⟩
    exact .start h

/-- A walk goes on through the script that follows. -/
theorem Walk.bind {s : Script α} {f : α → Script β} {first second : List Act} {middle : α}
    {result : β} (hfirst : Walk s first middle) (hsecond : Walk (f middle) second result) :
    Walk (s.bind f) (first ++ second) result := by
  induction hfirst with
  | done => exact hsecond
  | perform _ ih => exact .perform (ih hsecond)
  | observe _ ih => exact .observe (ih hsecond)
  | pause _ ih => exact .pause (ih hsecond)
  | request _ ih => exact .request (ih hsecond)
  | start _ ih => exact .start (ih hsecond)

/-- A walk through two scripts is a walk through the first and then one through
the second. -/
theorem walk_bind_iff {s : Script α} {f : α → Script β} {acts : List Act} {result : β} :
    Walk (s.bind f) acts result ↔
      ∃ first middle second, acts = first ++ second ∧
        Walk s first middle ∧ Walk (f middle) second result := by
  constructor
  · intro h
    induction s generalizing acts with
    | done a => exact ⟨[], a, acts, rfl, .done, h⟩
    | perform effect next ih =>
        obtain ⟨later, rfl, hlater⟩ := walk_perform_iff.1 h
        obtain ⟨first, middle, second, rfl, hfirst, hsecond⟩ := ih hlater
        exact ⟨_, middle, second, rfl, .perform hfirst, hsecond⟩
    | observe next ih =>
        obtain ⟨page, later, rfl, hlater⟩ := walk_observe_iff.1 h
        obtain ⟨first, middle, second, rfl, hfirst, hsecond⟩ := ih page hlater
        exact ⟨_, middle, second, rfl, .observe hfirst, hsecond⟩
    | pause ms next ih =>
        obtain ⟨later, rfl, hlater⟩ := walk_pause_iff.1 h
        obtain ⟨first, middle, second, rfl, hfirst, hsecond⟩ := ih hlater
        exact ⟨_, middle, second, rfl, .pause hfirst, hsecond⟩
    | request message next ih =>
        obtain ⟨reply, later, rfl, hlater⟩ := walk_request_iff.1 h
        obtain ⟨first, middle, second, rfl, hfirst, hsecond⟩ := ih reply hlater
        exact ⟨_, middle, second, rfl, .request hfirst, hsecond⟩
    | start job next ih =>
        obtain ⟨task, later, rfl, hlater⟩ := walk_start_iff.1 h
        obtain ⟨first, middle, second, rfl, hfirst, hsecond⟩ := ih task hlater
        exact ⟨_, middle, second, rfl, .start hfirst, hsecond⟩
  · rintro ⟨first, middle, second, rfl, hfirst, hsecond⟩
    exact hfirst.bind hsecond

/-- What is made of the result of a script takes no steps. -/
theorem walk_map_iff {s : Script α} {f : α → β} {acts : List Act} {result : β} :
    Walk (s.bind fun a => .done (f a)) acts result ↔ ∃ a, Walk s acts a ∧ f a = result := by
  rw [walk_bind_iff]
  constructor
  · rintro ⟨first, a, none, rfl, hfirst, hdone⟩
    obtain ⟨rfl, rfl⟩ := walk_done_iff.1 hdone
    exact ⟨a, by rwa [List.append_nil], rfl⟩
  · rintro ⟨a, hwalk, rfl⟩
    exact ⟨acts, a, [], (List.append_nil acts).symm, hwalk, .done⟩

/-- The steps of waiting: none where there is nothing to wait for. -/
def waited (ms : Nat) : List Act :=
  if ms = 0 then [] else [.paused ms]

theorem eq_paused_of_mem_waited {ms : Nat} {act : Act} (hact : act ∈ waited ms) :
    act = .paused ms := by
  rw [waited] at hact
  split at hact
  · exact absurd hact List.not_mem_nil
  · exact List.mem_singleton.1 hact

@[simp]
theorem walk_wait_iff {ms : Nat} {acts : List Act} {result : Unit} :
    Walk (wait ms) acts result ↔ acts = waited ms := by
  by_cases hms : ms = 0
  · simp [wait, waited, hms]
  · simp [wait, waited, hms]

@[simp]
theorem walk_send_iff {message : HttpRequest} {acts : List Act} {reply : HttpReply} :
    Walk (send message) acts reply ↔ acts = [.asked message reply] := by
  constructor
  · intro h
    obtain ⟨answer, later, rfl, hlater⟩ := walk_request_iff.1 h
    obtain ⟨rfl, rfl⟩ := walk_done_iff.1 hlater
    rfl
  · rintro rfl
    exact .request .done

@[simp]
theorem walk_performAll_iff {effects : List Effect} {acts : List Act} {result : Unit} :
    Walk (performAll effects) acts result ↔ acts = effects.map .performed := by
  induction effects generalizing acts with
  | nil => simp [performAll]
  | cons effect rest ih =>
      constructor
      · intro h
        obtain ⟨later, rfl, hlater⟩ := walk_perform_iff.1 h
        rw [ih.1 hlater, List.map_cons]
      · rintro rfl
        exact .perform (ih.2 rfl)

/-- Every script can come to its end. -/
theorem exists_walk (s : Script α) : ∃ acts result, Walk s acts result := by
  induction s with
  | done a => exact ⟨[], a, .done⟩
  | perform effect next ih =>
      obtain ⟨acts, result, hwalk⟩ := ih
      exact ⟨_, result, .perform hwalk⟩
  | observe next ih =>
      obtain ⟨acts, result, hwalk⟩ := ih default
      exact ⟨_, result, .observe hwalk⟩
  | pause ms next ih =>
      obtain ⟨acts, result, hwalk⟩ := ih
      exact ⟨_, result, .pause hwalk⟩
  | request message next ih =>
      obtain ⟨acts, result, hwalk⟩ := ih (.ok default)
      exact ⟨_, result, .request hwalk⟩
  | start job next ih =>
      obtain ⟨acts, result, hwalk⟩ := ih 0
      exact ⟨_, result, .start hwalk⟩

/-- How a script comes to be another one: by doing some of its steps. -/
inductive Leads : Script α → List Act → Script α → Prop where
  | refl {s : Script α} : Leads s [] s
  | perform {effect : Effect} {next rest : Script α} {acts : List Act} :
      Leads next acts rest → Leads (.perform effect next) (.performed effect :: acts) rest
  | observe {next : PageState → Script α} {page : PageState} {rest : Script α} {acts : List Act} :
      Leads (next page) acts rest → Leads (.observe next) (.observed page :: acts) rest
  | pause {ms : Nat} {next rest : Script α} {acts : List Act} :
      Leads next acts rest → Leads (.pause ms next) (.paused ms :: acts) rest
  | request {message : HttpRequest} {next : HttpReply → Script α} {reply : HttpReply}
      {rest : Script α} {acts : List Act} :
      Leads (next reply) acts rest →
      Leads (.request message next) (.asked message reply :: acts) rest
  | start {job : Job} {next : TaskId → Script α} {task : TaskId} {rest : Script α}
      {acts : List Act} :
      Leads (next task) acts rest → Leads (.start job next) (.started job task :: acts) rest

/-- Some steps and then a walk through what is left are a walk. -/
theorem Leads.walk {s rest : Script α} {acts later : List Act} {result : α}
    (hleads : Leads s acts rest) (hwalk : Walk rest later result) :
    Walk s (acts ++ later) result := by
  induction hleads with
  | refl => exact hwalk
  | perform _ ih => exact .perform (ih hwalk)
  | observe _ ih => exact .observe (ih hwalk)
  | pause _ ih => exact .pause (ih hwalk)
  | request _ ih => exact .request (ih hwalk)
  | start _ ih => exact .start (ih hwalk)

theorem Leads.trans {s middle rest : Script α} {first second : List Act}
    (hfirst : Leads s first middle) (hsecond : Leads middle second rest) :
    Leads s (first ++ second) rest := by
  induction hfirst with
  | refl => exact hsecond
  | perform _ ih => exact .perform (ih hsecond)
  | observe _ ih => exact .observe (ih hsecond)
  | pause _ ih => exact .pause (ih hsecond)
  | request _ ih => exact .request (ih hsecond)
  | start _ ih => exact .start (ih hsecond)

/-- With the same answers a script goes the same way. -/
theorem Walk.deterministic {s : Script α} {acts others : List Act} {result other : α}
    (hwalk : Walk s acts result) (hother : Walk s others other)
    (hsame : Act.SameAnswers acts others) : others = acts ∧ other = result := by
  induction hwalk generalizing others with
  | done => exact walk_done_iff.1 hother
  | perform _ ih =>
      obtain ⟨later, rfl, hlater⟩ := walk_perform_iff.1 hother
      obtain ⟨rfl, rfl⟩ := ih hlater (List.forall_mem_cons.1 hsame).2
      exact ⟨rfl, rfl⟩
  | observe _ ih =>
      obtain ⟨page, later, rfl, hlater⟩ := walk_observe_iff.1 hother
      obtain ⟨rfl, hrest⟩ := List.forall_mem_cons.1 hsame
      obtain ⟨rfl, rfl⟩ := ih hlater hrest
      exact ⟨rfl, rfl⟩
  | pause _ ih =>
      obtain ⟨later, rfl, hlater⟩ := walk_pause_iff.1 hother
      obtain ⟨rfl, rfl⟩ := ih hlater (List.forall_mem_cons.1 hsame).2
      exact ⟨rfl, rfl⟩
  | request _ ih =>
      obtain ⟨reply, later, rfl, hlater⟩ := walk_request_iff.1 hother
      obtain ⟨rfl, hrest⟩ := List.forall_mem_cons.1 hsame
      obtain ⟨rfl, rfl⟩ := ih hlater hrest
      exact ⟨rfl, rfl⟩
  | start _ ih =>
      obtain ⟨task, later, rfl, hlater⟩ := walk_start_iff.1 hother
      obtain ⟨rfl, hrest⟩ := List.forall_mem_cons.1 hsame
      obtain ⟨rfl, rfl⟩ := ih hlater hrest
      exact ⟨rfl, rfl⟩

/-- A way of a script, and the only one with the answers along it. -/
def OnlyWalk (s : Script α) (acts : List Act) (result : α) : Prop :=
  Walk s acts result ∧ ∀ others other, Walk s others other → Act.SameAnswers acts others →
    others = acts ∧ other = result

theorem Walk.only {s : Script α} {acts : List Act} {result : α} (hwalk : Walk s acts result) :
    OnlyWalk s acts result :=
  ⟨hwalk, fun _ _ hother hsame => hwalk.deterministic hother hsame⟩

end Script

end LivePage
