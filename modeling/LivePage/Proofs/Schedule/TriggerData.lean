import LivePage.Proofs.Command.Dispatch
import LivePage.Proofs.Run.Contexts
import LivePage.Proofs.Schedule.Handling

/-!
# Trigger data

What expressions see of a trigger record.  A record that names a declared component is
handed from the session to the handler of the component and from there to the first binding
of its trigger, and the condition and all actions of the binding see the same event.  Its
type is the trigger of the record in every case.  The target reaches them for clicks and
changes; for submits and loads the handler reports none.
-/

namespace LivePage

/-- The progress of a script that makes something of its result. -/
def Progress.map (f : α → β) : Progress α → Progress β
  | ended result => ended (f result)
  | waits ms next => waits ms (f <$> next)

namespace Machine

variable {σ : Type}

theorem advance_map (setting : Setting σ) (script : Script α) (f : α → β)
    (machine : Machine σ) :
    machine.advance setting (f <$> script) =
      ((machine.advance setting script).1.map f, (machine.advance setting script).2) := by
  change machine.advance setting (script.bind fun a => .done (f a)) = _
  induction script generalizing machine with
  | done result => rfl
  | perform effect next ih => exact ih _
  | observe next ih => exact ih _ machine
  | pause ms next ih =>
      rw [Script.bind, advance, advance]
      split
      · exact ih machine
      · rfl
  | request message next ih =>
      simp only [Script.bind, advance]
      split
      · exact ih _ _
      · rfl
  | start job next ih => exact ih _ _

theorem run_map (setting : Setting σ) (script : Script α) (f : α → β) (machine : Machine σ) :
    machine.run setting (f <$> script) =
      (f (machine.run setting script).1, (machine.run setting script).2) := by
  change machine.run setting (script.bind fun a => .done (f a)) = _
  induction script generalizing machine with
  | done result => rfl
  | perform effect next ih => exact ih _
  | observe next ih => exact ih _ machine
  | pause ms next ih => exact ih _
  | request message next ih => exact ih _ _
  | start job next ih => exact ih _ _

/-- Scripts that do the same still do so when the same is made of their results. -/
theorem Becomes.map {setting : Setting σ} {script rest : Script α} {machine after : Machine σ}
    (hbecomes : Becomes setting script machine rest after) (f : α → β) :
    Becomes setting (f <$> script) machine (f <$> rest) after where
  turn := by rw [advance_map, advance_map, hbecomes.turn]
  foreground := by rw [run_map, run_map, hbecomes.foreground]
  interruptible := fun stop => by rw [runUnless_map, runUnless_map, hbecomes.interruptible]

end Machine

namespace Context

/-- What expressions see of the trigger that fired: its name and its target. -/
structure SeesTrigger (context : Context) (trigger : Trigger) (target : Json) : Prop where
  type : context.lookup "event.type" = .str trigger.name
  target : context.lookup "event.target" = target

theorem lookup_event (context : Context) {text name : String}
    (hpath : Path.parse text = .ok ⟨[.key "event", .key name]⟩) :
    context.lookup text = .ofOption (context.event.seen.walk? [.key name]) := by
  simp [lookup, hpath, resolve?, Path.root, Path.rest]

theorem parse_type : Path.parse "event.type" = .ok ⟨[.key "event", .key "type"]⟩ := by
  decide +kernel

theorem parse_target : Path.parse "event.target" = .ok ⟨[.key "event", .key "target"]⟩ := by
  decide +kernel

theorem seesTrigger_of_event (context : Context) {trigger : Trigger}
    (htrigger : context.event.trigger = some trigger) :
    context.SeesTrigger trigger context.event.target := by
  constructor
  · rw [lookup_event _ parse_type, Event.seen, Json.walk?_ofMembers, htrigger]
    simp [Dict.get?_ofList, Json.ofOption]
  · rw [lookup_event _ parse_target, Event.seen, Json.walk?_ofMembers]
    simp [Dict.get?_ofList, Json.ofOption]

/-- A response does not hide what fired. -/
theorem SeesTrigger.of_withoutResponse {context other : Context} {trigger : Trigger}
    {target : Json} (hsees : context.SeesTrigger trigger target)
    (hsame : other.withoutResponse = context.withoutResponse) :
    other.SeesTrigger trigger target := by
  have hevent : other.withoutResponse.event = context.withoutResponse.event := by rw [hsame]
  change other.event = context.event at hevent
  constructor
  · rw [lookup_event _ parse_type, hevent, ← lookup_event _ parse_type, hsees.type]
  · rw [lookup_event _ parse_target, hevent, ← lookup_event _ parse_target, hsees.target]

end Context

namespace Handler

theorem seesTrigger_snapshot (page : PageState) (trigger : Trigger) (payload : Payload) :
    (page.snapshot (event trigger payload)).SeesTrigger trigger
      (reported trigger payload).target :=
  (page.snapshot (event trigger payload)).seesTrigger_of_event rfl

/-- A submit and a load report no target, whatever came with them. -/
theorem target_reported_eq_iff (trigger : Trigger) (payload : Payload) :
    (reported trigger payload).target = payload.target ↔
      trigger = .onClick ∨ trigger = .onChange ∨ payload.target = .null := by
  cases trigger <;> simp [reported, eq_comm]

end Handler

namespace Session

/-- A record that names a declared component is handled by the handler of the component. -/
theorem dispatch_of_declared {page : Page} {record : TriggerRecord} {component : Component}
    (hdeclared : page.components.get? record.component = some component) :
    (ofPage page).dispatch record =
      .ok <$> (Handler.ofComponent record.component component).handle (ofPage page).engine
        record.trigger record.payload := by
  rw [dispatch, handler?_ofPage, hdeclared]
  rfl

/-- The way of a trigger record to the expressions.  On any page and in any state of it, a
record that names a declared component is handled by the first binding of its trigger: if
the binding is enabled and its condition holds, its actions are run.  The condition and
every action that is run, in a branch or in a task as well, see the name of the trigger and
the target that the handler reports.  This is the target of the record for clicks and
changes, and null for submits and loads. -/
theorem dispatched_trigger_data {σ : Type} (page : Page) (host : Host σ) (machine : Machine σ)
    (record : TriggerRecord) {component : Component} {binding : Binding}
    (hdeclared : page.components.get? record.component = some component)
    (hfirst : (Handler.ofComponent record.component component).IsFirst record.trigger binding) :
    let setting : Setting σ := ⟨(ofPage page).engine, host⟩
    let handler := Handler.ofComponent record.component component
    let after := machine.withPage
      (handler.written record.trigger record.payload machine.world.page)
    let context := after.world.page.snapshot (Handler.event record.trigger record.payload)
    let target := (Handler.reported record.trigger record.payload).target
    Machine.Becomes setting ((ofPage page).dispatch record) machine
        (.ok <$> if binding.enabled ∧ Condition.allows binding.condition context then
          some <$> setting.engine.runList 0 context binding.actions else .done none) after ∧
      context.SeesTrigger record.trigger target ∧
      (∀ place entries run,
        setting.engine.ListAccount place 0 0 context binding.actions entries run →
          ∀ entry ∈ entries, entry.context.SeesTrigger record.trigger target) ∧
      (target = record.payload.target ↔ record.trigger = .onClick ∨ record.trigger = .onChange ∨
        record.payload.target = .null) := by
  intro setting handler after context target
  have hsees : context.SeesTrigger record.trigger target :=
    Handler.seesTrigger_snapshot after.world.page record.trigger record.payload
  refine ⟨?_, hsees, ?_, Handler.target_reported_eq_iff record.trigger record.payload⟩
  · rw [dispatch_of_declared hdeclared]
    have hhandled := Handler.becomes_of_isFirst setting hfirst record.payload machine rfl
    exact hhandled.map Except.ok
  · intro place entries run haccount entry hentry
    exact hsees.of_withoutResponse (haccount.withoutResponse_eq entry hentry)

/-- A panel that reacts only where its own target is told: it reacts to clicks, and not to
submits that come with the same target. -/
theorem dispatched_trigger_data_of_panel :
    let binding (trigger : Trigger) : Binding :=
      { trigger
        condition := some { field := "event.target", operator := .isTrue }
        actions := [{ kind := .refresh "list" }] }
    let panel : Component := { bindings := [binding .onSubmit, binding .onClick] }
    let page : Page := { components := Dict.ofList [("panel", panel)] }
    let setting : Setting Nat := ⟨(ofPage page).engine, Setting.counting.host⟩
    let machine : Machine Nat := { world := { page := initialState page, host := 0 } }
    let record (trigger : Trigger) : TriggerRecord :=
      { component := "panel", trigger, payload := { target := .bool true } }
    (∃ context : Context, context.SeesTrigger .onClick (.bool true) ∧
      Machine.Becomes setting ((ofPage page).dispatch (record .onClick)) machine
        (.ok <$> some <$> setting.engine.runList 0 context [{ kind := .refresh "list" }])
        (machine.withPage (initialState page))) ∧
      ∃ after, Machine.Becomes setting ((ofPage page).dispatch (record .onSubmit)) machine
        (.done (.ok none)) after := by
  intro binding panel page setting machine record
  have hclick : (Handler.ofComponent "panel" panel).IsFirst .onClick (binding .onClick) :=
    Handler.binding?_eq_some_iff.1 rfl
  have hsubmit : (Handler.ofComponent "panel" panel).IsFirst .onSubmit (binding .onSubmit) :=
    Handler.binding?_eq_some_iff.1 rfl
  obtain ⟨hclicked, hsees, -⟩ := dispatched_trigger_data page Setting.counting.host machine
    (record .onClick) rfl hclick
  obtain ⟨hsubmitted, -⟩ := dispatched_trigger_data page Setting.counting.host machine
    (record .onSubmit) rfl hsubmit
  rw [if_pos ⟨rfl, by decide +kernel⟩] at hclicked
  rw [if_neg (fun h => absurd h.2 (by decide +kernel))] at hsubmitted
  exact ⟨⟨_, hsees, hclicked⟩, _, hsubmitted⟩

end Session

end LivePage
