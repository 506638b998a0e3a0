import LivePage.Proofs.Schedule.Crowd
import LivePage.Proofs.Store.Merge
import LivePage.Run.Handler
import LivePage.Schedule.Interrupt

/-!
# Handled triggers

What a component does when it is triggered.  It first writes what the trigger brings,
whether or not anything is bound to it.  Then the first binding of the trigger decides:
if it is enabled and its condition holds on the page as it is now, its actions run on a
snapshot of that page, and else nothing happens.  Later bindings of the trigger have no
say.
-/

namespace LivePage

namespace Machine

variable {σ : Type} {α : Type}

/-- The machine with another page. -/
def withPage (machine : Machine σ) (page : PageState) : Machine σ :=
  { machine with world := { machine.world with page } }

/-- A script on one machine does what a second script does on a second machine, be it in
a turn of its own, in the foreground, or in the foreground until it is interrupted. -/
structure Becomes (setting : Setting σ) (script : Script α) (machine : Machine σ)
    (rest : Script α) (after : Machine σ) : Prop where
  turn : machine.advance setting script = after.advance setting rest
  foreground : machine.run setting script = after.run setting rest
  interruptible : ∀ stop,
    machine.runUnless setting stop script = after.runUnless setting stop rest

variable {setting : Setting σ} {machine middle after : Machine σ}
  {script between rest : Script α}

theorem Becomes.refl (setting : Setting σ) (script : Script α) (machine : Machine σ) :
    Becomes setting script machine script machine :=
  ⟨rfl, rfl, fun _ => rfl⟩

theorem Becomes.trans (hfirst : Becomes setting script machine between middle)
    (hsecond : Becomes setting between middle rest after) :
    Becomes setting script machine rest after :=
  ⟨hfirst.turn.trans hsecond.turn, hfirst.foreground.trans hsecond.foreground,
    fun stop => (hfirst.interruptible stop).trans (hsecond.interruptible stop)⟩

/-- A change of the page is done at once. -/
theorem Becomes.store (setting : Setting σ) (op : StoreOp) (next : Script α)
    (machine : Machine σ) :
    Becomes setting (.perform (.store op) next) machine next
      (machine.withPage (machine.world.page.apply op)) :=
  ⟨rfl, rfl, fun _ => rfl⟩

/-- A look at the page shows it as it is. -/
theorem Becomes.observe (setting : Setting σ) (next : PageState → Script α)
    (machine : Machine σ) :
    Becomes setting (.observe next) machine (next machine.world.page) machine :=
  ⟨rfl, rfl, fun _ => rfl⟩

end Machine

namespace ComponentState

/-- A patch that holds a value alone sets the value alone. -/
theorem merge_withValue (state : ComponentState) (value : Json) :
    state.merge (.withValue value) = { state with value := some value } := by
  apply ext_part?
  intro part
  rw [part?_merge]
  cases part <;> rfl

end ComponentState

/-- What a binding does on a page as it is. -/
theorem Engine.becomes_fireBinding {σ : Type} {setting : Setting σ} {binding : Binding}
    {payload : Payload} {machine : Machine σ} {event : Event}
    (hevent : event =
      { trigger := some binding.trigger, value := payload.value, target := payload.target }) :
    Machine.Becomes setting (setting.engine.fireBinding binding payload) machine
      (if binding.enabled ∧ Condition.allows binding.condition (machine.world.page.snapshot event)
        then some <$> setting.engine.runList 0 (machine.world.page.snapshot event) binding.actions
        else .done none) machine := by
  subst hevent
  rw [fireBinding]
  cases binding.enabled with
  | false =>
      simp only [Bool.false_eq_true, false_and, if_false, Bool.not_false, if_true]
      exact .refl ..
  | true =>
      simp only [Bool.not_true, Bool.false_eq_true, if_false, true_and]
      exact .observe ..

namespace Handler

/-- What a trigger reports to the actions bound to it: a submit has no target, and a load
has neither a value nor a target. -/
def reported (trigger : Trigger) (payload : Payload) : Payload :=
  match trigger with
  | .onClick | .onChange => payload
  | .onSubmit => { value := .ofDict (submitted payload.value) }
  | .onLoad => {}

/-- The event that conditions and actions see. -/
def event (trigger : Trigger) (payload : Payload) : Event where
  trigger := some trigger
  value := (reported trigger payload).value
  target := (reported trigger payload).target

/-- The page after what a trigger writes: a change sets the value of the component, and a
submit writes the members of the submitted object into the form. -/
def written (handler : Handler) (trigger : Trigger) (payload : Payload) (page : PageState) :
    PageState :=
  match trigger with
  | .onClick | .onLoad => page
  | .onChange =>
      let state := { page.componentOrNew handler.component with value := some payload.value }
      { page with components := page.components.insert handler.component state }
  | .onSubmit =>
      match payload.value with
      | .obj members => { page with form := page.form.union (.ofList members) }
      | _ => page

theorem written_onChange (handler : Handler) (payload : Payload) (page : PageState) :
    handler.written .onChange payload page =
      page.apply (.edit handler.component (.merge (.withValue payload.value))) := by
  rw [PageState.apply, PageState.edit, ComponentState.Edit.apply, ComponentState.merge_withValue]
  rfl

theorem written_onSubmit (handler : Handler) (payload : Payload) (page : PageState) :
    handler.written .onSubmit payload page = page.apply (.mergeForm (submitted payload.value)) := by
  obtain ⟨value, target⟩ := payload
  cases value <;> rfl

/-- Handling a trigger is writing what it brings and then firing it. -/
theorem becomes_fire {σ : Type} (setting : Setting σ) (handler : Handler) (trigger : Trigger)
    (payload : Payload) (machine : Machine σ) :
    Machine.Becomes setting (handler.handle setting.engine trigger payload) machine
      (handler.fire setting.engine trigger (reported trigger payload))
      (machine.withPage (handler.written trigger payload machine.world.page)) := by
  cases trigger with
  | onClick | onLoad => exact .refl ..
  | onChange =>
      rw [written_onChange]
      exact .store ..
  | onSubmit =>
      rw [written_onSubmit]
      exact .store ..

/-- The binding stands in front of all others of its trigger. -/
def IsFirst (handler : Handler) (trigger : Trigger) (binding : Binding) : Prop :=
  ∃ before behind, handler.bindings = before ++ binding :: behind ∧
    binding.trigger = trigger ∧ ∀ earlier ∈ before, earlier.trigger ≠ trigger

theorem binding?_eq_some_iff {handler : Handler} {trigger : Trigger} {binding : Binding} :
    handler.binding? trigger = some binding ↔ handler.IsFirst trigger binding := by
  rw [binding?, List.find?_eq_some_iff_append, IsFirst]
  constructor
  · rintro ⟨htrigger, before, behind, hbindings, hbefore⟩
    exact ⟨before, behind, hbindings, by simpa using htrigger, by simpa using hbefore⟩
  · rintro ⟨before, behind, hbindings, htrigger, hbefore⟩
    exact ⟨by simpa using htrigger, before, behind, hbindings, by simpa using hbefore⟩

/-- If nothing is bound to a trigger, nothing follows what is written. -/
theorem becomes_done {σ : Type} (setting : Setting σ) {handler : Handler} {trigger : Trigger}
    (hnone : handler.binding? trigger = none) (payload : Payload) (machine : Machine σ) :
    Machine.Becomes setting (handler.handle setting.engine trigger payload) machine (.done none)
      (machine.withPage (handler.written trigger payload machine.world.page)) := by
  have hfire := becomes_fire setting handler trigger payload machine
  rw [fire, hnone] at hfire
  exact hfire

/-- The first binding of a trigger decides on the page as it is after what is written. -/
theorem becomes_of_isFirst {σ : Type} (setting : Setting σ) {handler : Handler}
    {trigger : Trigger} {binding : Binding} (hfirst : handler.IsFirst trigger binding)
    (payload : Payload) (machine : Machine σ) {context : Context}
    (hcontext : context =
      (handler.written trigger payload machine.world.page).snapshot (event trigger payload)) :
    Machine.Becomes setting (handler.handle setting.engine trigger payload) machine
      (if binding.enabled ∧ Condition.allows binding.condition context then
        some <$> setting.engine.runList 0 context binding.actions else .done none)
      (machine.withPage (handler.written trigger payload machine.world.page)) := by
  subst hcontext
  have hfire := becomes_fire setting handler trigger payload machine
  rw [fire, binding?_eq_some_iff.2 hfirst] at hfire
  refine hfire.trans (Engine.becomes_fireBinding ?_)
  obtain ⟨-, -, -, rfl, -⟩ := hfirst
  rfl

/-- Handlers of one component with the same first bindings do the same. -/
theorem handle_congr {handler other : Handler} (hcomponent : handler.component = other.component)
    (hbinding : ∀ trigger, handler.binding? trigger = other.binding? trigger) (engine : Engine)
    (trigger : Trigger) (payload : Payload) :
    handler.handle engine trigger payload = other.handle engine trigger payload := by
  have hfire (trigger : Trigger) (payload : Payload) :
      handler.fire engine trigger payload = other.fire engine trigger payload := by
    rw [fire, fire, hbinding]
  cases trigger with
  | onClick => exact hfire ..
  | onChange => rw [handle, handle, onChange, onChange, hcomponent, hfire]
  | onSubmit => rw [handle, handle, onSubmit, onSubmit, hfire]
  | onLoad => exact hfire ..

/-- Behind a binding only those of other triggers can be first ones. -/
theorem binding?_of_filter_eq (component : String) (before : List Binding)
    {behind others : List Binding} {binding : Binding}
    (hothers : behind.filter (·.trigger ≠ binding.trigger) =
      others.filter (·.trigger ≠ binding.trigger)) (trigger : Trigger) :
    binding? ⟨component, before ++ binding :: behind⟩ trigger =
      binding? ⟨component, before ++ binding :: others⟩ trigger := by
  rw [binding?, binding?, List.find?_append, List.find?_append, List.find?_cons, List.find?_cons]
  by_cases htrigger : binding.trigger = trigger
  · simp [htrigger]
  · have hfind (bindings : List Binding) :
        bindings.find? (fun later => later.trigger = trigger) =
          (bindings.filter (·.trigger ≠ binding.trigger)).find? fun later =>
            later.trigger = trigger := by
      rw [List.find?_filter]
      congr
      funext later
      by_cases hlater : later.trigger = trigger
      · simp [hlater, Ne.symm htrigger]
      · simp [hlater]
    rw [hfind behind, hfind others, hothers]

/-- What a trigger writes is there for the condition and the actions bound to it. -/
theorem snapshot_written (handler : Handler) (payload : Payload) (page : PageState)
    (event : Event) :
    ((handler.written .onChange payload page).snapshot event).components.get? handler.component =
        some payload.value ∧
      ∀ members, payload.value = .obj members → ∀ name,
        ((handler.written .onSubmit payload page).snapshot event).form.get? name =
          ((Dict.ofList members).get? name).or (page.form.get? name) := by
  constructor
  · rw [PageState.snapshot, Dict.get?_mapValues, written, Dict.get?_insert, if_pos rfl]
    rfl
  · intro members hvalue name
    rw [PageState.snapshot, written, hvalue]
    exact Dict.get?_union ..

/-- What handling a trigger does on any page.  First the page is written to: a change sets
the value of the component, a submit extends the form by the submitted object, and nothing
else is written.  If the first binding of the trigger is enabled and its condition holds on
a snapshot of the page after that, its actions run on this snapshot; in every other case
nothing follows.  Bindings of the trigger behind the first one may be there or not, or be
replaced by others. -/
theorem handler_semantics {σ : Type} (setting : Setting σ) (handler : Handler)
    (trigger : Trigger) (payload : Payload) (machine : Machine σ) :
    let after := machine.withPage (handler.written trigger payload machine.world.page)
    let context := after.world.page.snapshot (event trigger payload)
    (∀ binding, handler.IsFirst trigger binding → binding.enabled = true →
        Condition.allows binding.condition context = true →
          Machine.Becomes setting (handler.handle setting.engine trigger payload) machine
            (some <$> setting.engine.runList 0 context binding.actions) after) ∧
      ((∀ binding, handler.IsFirst trigger binding →
          binding.enabled = false ∨ Condition.allows binding.condition context = false) →
        Machine.Becomes setting (handler.handle setting.engine trigger payload) machine
          (.done none) after) ∧
      (trigger = .onChange → context.components.get? handler.component = some payload.value) ∧
      (trigger = .onSubmit → ∀ members, payload.value = .obj members → ∀ name,
        context.form.get? name =
          ((Dict.ofList members).get? name).or (machine.world.page.form.get? name)) ∧
      ∀ before binding behind others, handler.bindings = before ++ binding :: behind →
        behind.filter (·.trigger ≠ binding.trigger) =
          others.filter (·.trigger ≠ binding.trigger) →
        handler.handle setting.engine trigger payload =
          handle ⟨handler.component, before ++ binding :: others⟩ setting.engine trigger
            payload := by
  intro after context
  refine ⟨fun binding hfirst henabled hallows => ?_, fun hnone => ?_, ?_, ?_, ?_⟩
  · have hboth := becomes_of_isFirst setting hfirst payload machine rfl
    rwa [if_pos ⟨henabled, hallows⟩] at hboth
  · cases hfound : handler.binding? trigger with
    | none => exact becomes_done setting hfound payload machine
    | some binding =>
        have hfirst := binding?_eq_some_iff.1 hfound
        have hneither := becomes_of_isFirst setting hfirst payload machine rfl
        rwa [if_neg] at hneither
        rintro ⟨henabled, hallows⟩
        rcases hnone binding hfirst with hdisabled | hrefused
        · exact absurd henabled (by simp [hdisabled])
        · exact absurd (hrefused.symm.trans hallows) Bool.false_ne_true
  · rintro rfl
    exact (snapshot_written handler payload machine.world.page _).1
  · rintro rfl
    exact (snapshot_written handler payload machine.world.page _).2
  · intro before binding behind others hbindings hothers
    obtain ⟨component, bindings⟩ := handler
    obtain rfl : bindings = _ := hbindings
    refine handle_congr ?_ (binding?_of_filter_eq component before hothers) ..
    rfl

/-- A switch with two bindings for its changes, of which the first wants it to be on. -/
def switch : Handler where
  component := "switch"
  bindings := [{ trigger := .onClick },
    { trigger := .onChange
      condition := some { field := "components.switch", operator := .isTrue }
      actions := [{ kind := .setLoading "panel" true }] },
    { trigger := .onChange, actions := [{ kind := .setLoading "panel" false }] }]

/-- Turned on, the switch runs the first list; turned off, it runs none. -/
theorem handler_semantics_of_switch :
    let off : PageState := { components := Dict.ofList [("switch", .withValue (.bool false))] }
    let machine : Machine Nat := { world := { page := off, host := 0 } }
    ∃ on context,
      Machine.Becomes .counting (switch.handle {} .onChange { value := .bool true }) machine
        (some <$> Engine.runList {} 0 context [{ kind := .setLoading "panel" true }])
        (machine.withPage on) ∧
      context.lookup "components.switch" = .bool true ∧
      Machine.Becomes .counting (switch.handle {} .onChange { value := .bool false }) machine
        (.done none) (machine.withPage off) := by
  intro off machine
  have hfirst : switch.IsFirst .onChange (switch.bindings[1]) :=
    binding?_eq_some_iff.1 rfl
  obtain ⟨hruns, -⟩ :=
    handler_semantics .counting switch .onChange { value := .bool true } machine
  obtain ⟨-, hrefuses, -⟩ :=
    handler_semantics .counting switch .onChange { value := .bool false } machine
  have hpath : Path.parse "components.switch" = .ok ⟨[.key "components", .key "switch"]⟩ := by
    decide +kernel
  refine ⟨_, _, hruns _ hfirst rfl (by decide +kernel), ?_, hrefuses ?_⟩
  · rw [Context.lookup, hpath]
    rfl
  intro binding hbinding
  obtain rfl : switch.bindings[1] = binding :=
    Option.some.inj ((binding?_eq_some_iff.2 hfirst).symm.trans (binding?_eq_some_iff.2 hbinding))
  exact .inr (by decide +kernel)

end Handler

end LivePage
