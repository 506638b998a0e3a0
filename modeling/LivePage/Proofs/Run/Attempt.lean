import LivePage.Proofs.Run.Walk
import LivePage.Run.Engine

/-!
# Attempts and their aftermath

Running an action falls into two parts.  The attempt decides how the action ends,
without a look at its branches; the aftermath then runs the branch that belongs
to the end, and nothing of it comes back.
-/

namespace LivePage

/-- How an action ends on the reply to its request. -/
def Outcome.ofReply : HttpReply → Outcome
  | .ok answer => .success (some answer)
  | .error error => .failure (.request error)

/-- The context that the next actions of a branch see after an answer. -/
def Context.answered (context : Context) (answer : HttpResponse) : Context :=
  context.withResponse (.ok answer.data (some answer.status))

/-- The context of a branch for failures. -/
def Context.refused (context : Context) (error : HttpError) : Context :=
  context.withResponse (.failed error.message)

namespace Engine

/-- The request of an action. -/
def requestOf (context : Context) (path : Template) (method : HttpMethod) (body : Option Json)
    (headers : Option (Dict Json)) : HttpRequest where
  method := method
  url := path.render context
  body := body.map (Json.interpolate context)
  headers := Engine.headers context headers

/-- What an action of a kind does besides waiting and running branches. -/
def act (engine : Engine) (context : Context) : ActionKind → Script Outcome
  | .callApi path method body headers =>
      (Script.send (requestOf context path method body headers)).bind fun reply =>
        .done (.ofReply reply)
  | kind => (Script.performAll (engine.effects context kind)).bind fun _ => .done (outcome kind)

/-- Runs an action but for its branches. -/
def attempt (engine : Engine) (depth : Nat) (context : Context) (action : Action) :
    Script Outcome :=
  if engine.maxDepth < depth then .done (.failure (.tooDeep engine.maxDepth))
  else if !Condition.allows action.condition context then .done (.success none)
  else (Script.wait (action.delay.getD 0)).bind fun _ => engine.act context action.kind

/-- Runs the branch that belongs to the end of an action. -/
def aftermath (engine : Engine) (depth : Nat) (context : Context) (action : Action) :
    Outcome → Script Unit
  | .success (some answer) =>
      engine.runBranch (depth + 1) (context.answered answer) action.onSuccess
  | .failure (.request error) =>
      engine.runBranch (depth + 1) (context.refused error) action.onError
  | _ => .done ()

/-- What an attempt can do, and how it then ends. -/
inductive Attempted (engine : Engine) (depth : Nat) (context : Context) (action : Action) :
    List Act → Outcome → Prop where
  | tooDeep : engine.maxDepth < depth →
      Attempted engine depth context action [] (.failure (.tooDeep engine.maxDepth))
  | skipped : depth ≤ engine.maxDepth → Condition.allows action.condition context = false →
      Attempted engine depth context action [] (.success none)
  | asked {path : Template} {method : HttpMethod} {body : Option Json}
      {headers : Option (Dict Json)} (reply : HttpReply) :
      depth ≤ engine.maxDepth → Condition.allows action.condition context = true →
      action.kind = .callApi path method body headers →
      Attempted engine depth context action
        (Script.waited (action.delay.getD 0) ++
          [.asked (requestOf context path method body headers) reply])
        (.ofReply reply)
  | performed : depth ≤ engine.maxDepth → Condition.allows action.condition context = true →
      action.kind.method? = none →
      Attempted engine depth context action
        (Script.waited (action.delay.getD 0) ++
          (engine.effects context action.kind).map .performed)
        (outcome action.kind)

theorem walk_act_callApi_iff {engine : Engine} {context : Context} {path : Template}
    {method : HttpMethod} {body : Option Json} {headers : Option (Dict Json)} {acts : List Act}
    {result : Outcome} :
    Script.Walk (engine.act context (.callApi path method body headers)) acts result ↔
      ∃ reply, acts = [.asked (requestOf context path method body headers) reply] ∧
        result = .ofReply reply := by
  rw [act, Script.walk_bind_iff]
  constructor
  · rintro ⟨first, reply, second, rfl, hsend, hdone⟩
    obtain ⟨rfl, rfl⟩ := Script.walk_done_iff.1 hdone
    exact ⟨reply, by rw [Script.walk_send_iff.1 hsend, List.append_nil], rfl⟩
  · rintro ⟨reply, rfl, rfl⟩
    exact ⟨_, reply, [], rfl, Script.walk_send_iff.2 rfl, .done⟩

theorem act_eq_of_method?_eq_none {engine : Engine} {context : Context} {kind : ActionKind}
    (hkind : kind.method? = none) :
    engine.act context kind =
      (Script.performAll (engine.effects context kind)).bind fun _ => .done (outcome kind) := by
  cases kind with
  | callApi => simp [ActionKind.method?] at hkind
  | _ => rfl

/-- The walks through an attempt are the ones that are listed. -/
theorem walk_attempt_iff {engine : Engine} {depth : Nat} {context : Context} {action : Action}
    {acts : List Act} {result : Outcome} :
    Script.Walk (engine.attempt depth context action) acts result ↔
      engine.Attempted depth context action acts result := by
  constructor
  · intro hwalk
    rw [attempt] at hwalk
    split at hwalk
    · next hdeep =>
        obtain ⟨rfl, rfl⟩ := Script.walk_done_iff.1 hwalk
        exact .tooDeep hdeep
    · next hdepth =>
        split at hwalk
        · next hskip =>
            obtain ⟨rfl, rfl⟩ := Script.walk_done_iff.1 hwalk
            exact .skipped (Nat.le_of_not_lt hdepth) (by simpa using hskip)
        · next hallows =>
            obtain ⟨first, _, second, rfl, hwait, hact⟩ := Script.walk_bind_iff.1 hwalk
            rw [Script.walk_wait_iff.1 hwait]
            have hdepth := Nat.le_of_not_lt hdepth
            have hallows : Condition.allows action.condition context = true := by
              simpa using hallows
            cases hkind : action.kind.method? with
            | none =>
                rw [act_eq_of_method?_eq_none hkind] at hact
                obtain ⟨third, _, fourth, rfl, hperform, hdone⟩ := Script.walk_bind_iff.1 hact
                obtain ⟨rfl, rfl⟩ := Script.walk_done_iff.1 hdone
                rw [Script.walk_performAll_iff.1 hperform, List.append_nil]
                exact .performed hdepth hallows hkind
            | some method =>
                obtain ⟨path, body, headers, hcall⟩ :
                    ∃ path body headers, action.kind = .callApi path method body headers := by
                  cases hkind' : action.kind <;> simp_all [ActionKind.method?]
                rw [hcall] at hact
                obtain ⟨reply, rfl, rfl⟩ := walk_act_callApi_iff.1 hact
                exact .asked reply hdepth hallows hcall
  · intro hattempted
    cases hattempted with
    | tooDeep hdeep => rw [attempt, if_pos hdeep]; exact .done
    | skipped hdepth hskip =>
        rw [attempt, if_neg (Nat.not_lt.2 hdepth), if_pos (by simpa using hskip)]
        exact .done
    | asked reply hdepth hallows hkind =>
        rw [attempt, if_neg (Nat.not_lt.2 hdepth), if_neg (by simp [hallows]), hkind]
        exact Script.walk_bind_iff.2
          ⟨_, (), _, rfl, Script.walk_wait_iff.2 rfl, walk_act_callApi_iff.2 ⟨reply, rfl, rfl⟩⟩
    | performed hdepth hallows hkind =>
        rw [attempt, if_neg (Nat.not_lt.2 hdepth), if_neg (by simp [hallows]),
          act_eq_of_method?_eq_none hkind]
        refine Script.walk_bind_iff.2 ⟨_, (), _, rfl, Script.walk_wait_iff.2 rfl, ?_⟩
        exact Script.walk_bind_iff.2
          ⟨_, (), [], (List.append_nil _).symm, Script.walk_performAll_iff.2 rfl, .done⟩

theorem answer?_outcome (kind : ActionKind) : (outcome kind).answer? = none := by
  cases kind <;> rfl

/-- An attempt waits, asks, or has the effects of the kind, and does nothing else. -/
theorem Attempted.act_cases {engine : Engine} {depth : Nat} {context : Context}
    {action : Action} {told : List Act} {outcome : Outcome}
    (hattempted : engine.Attempted depth context action told outcome) {act : Act}
    (hact : act ∈ told) :
    (∃ ms, act = .paused ms) ∨ (∃ message reply, act = .asked message reply) ∨
      ∃ effect ∈ engine.effects context action.kind, act = .performed effect := by
  cases hattempted with
  | tooDeep | skipped => exact absurd hact List.not_mem_nil
  | asked reply =>
      rcases List.mem_append.1 hact with hact | hact
      · exact .inl ⟨_, Script.eq_paused_of_mem_waited hact⟩
      · exact .inr (.inl ⟨_, _, List.mem_singleton.1 hact⟩)
  | performed =>
      rcases List.mem_append.1 hact with hact | hact
      · exact .inl ⟨_, Script.eq_paused_of_mem_waited hact⟩
      · obtain ⟨effect, heffect, rfl⟩ := List.mem_map.1 hact
        exact .inr (.inr ⟨effect, heffect, rfl⟩)

theorem Attempted.answer?_eq_some_iff {engine : Engine} {depth : Nat} {context : Context}
    {action : Action} {acts : List Act} {result : Outcome} {answer : HttpResponse}
    (hattempted : engine.Attempted depth context action acts result) :
    result.answer? = some answer ↔ ∃ message, Act.asked message (.ok answer) ∈ acts := by
  have hwaited (message : HttpRequest) (reply : HttpReply) (ms : Nat) :
      Act.asked message reply ∉ Script.waited ms :=
    fun hasked => nomatch Script.eq_paused_of_mem_waited hasked
  cases hattempted with
  | tooDeep | skipped => simp [Outcome.answer?]
  | asked reply =>
      cases reply with
      | ok got => simp [Outcome.ofReply, Outcome.answer?, hwaited, eq_comm]
      | error error => simp [Outcome.ofReply, Outcome.answer?, hwaited]
  | performed => simp [answer?_outcome, hwaited]

/-- An action is attempted, and then its branch is run. -/
theorem runAction_eq (engine : Engine) (depth : Nat) (context : Context) (action : Action) :
    engine.runAction depth context action =
      (engine.attempt depth context action).bind fun outcome =>
        (engine.aftermath depth context action outcome).bind fun _ => .done outcome := by
  obtain ⟨kind, condition, delay, detached, onSuccess, onError⟩ := action
  simp only [runAction, attempt]
  split
  · rfl
  · split
    · rfl
    · rw [Script.bind_assoc]
      simp only [Script.bind_eq, Script.pure_eq]
      congr 1
      funext _
      cases kind with
      | callApi path method body headers =>
          simp only [act, Script.send, Script.bind, requestOf]
          congr 1
          funext reply
          cases reply <;> rfl
      | unknown => rfl
      | _ => simp only [act, Script.bind_assoc, Script.bind, outcome, aftermath]

end Engine

end LivePage
