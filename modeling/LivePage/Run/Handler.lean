import LivePage.Page.Definition
import LivePage.Run.Engine

/-!
# Handlers

What a component does when it is triggered.  A change first writes the new value
and a submit first writes its record into the form, whether or not anything is
bound to the trigger; then the first binding of the trigger runs, on the page as
it is after that write.
-/

namespace LivePage

namespace Engine

/-- Fires a binding, unless it is disabled or its condition does not hold. -/
def fireBinding (engine : Engine) (binding : Binding) (payload : Payload) :
    Script (Option Run) :=
  if !binding.enabled then pure none
  else .observe fun state =>
    let context := state.snapshot
      { trigger := some binding.trigger, value := payload.value, target := payload.target }
    if Condition.allows binding.condition context then
      some <$> engine.runList 0 context binding.actions
    else pure none

end Engine

/-- The bindings of one component. -/
structure Handler where
  component : String
  bindings : List Binding
deriving Inhabited

namespace Handler

/-- The binding that a trigger fires: the first one in declared order. -/
def binding? (handler : Handler) (trigger : Trigger) : Option Binding :=
  handler.bindings.find? fun binding => binding.trigger = trigger

def fire (handler : Handler) (engine : Engine) (trigger : Trigger) (payload : Payload) :
    Script (Option Run) :=
  match handler.binding? trigger with
  | none => pure none
  | some binding => engine.fireBinding binding payload

def onClick (handler : Handler) (engine : Engine) (payload : Payload) : Script (Option Run) :=
  handler.fire engine .onClick payload

def onChange (handler : Handler) (engine : Engine) (payload : Payload) : Script (Option Run) :=
  .perform (.store (.edit handler.component (.merge (.withValue payload.value))))
    (handler.fire engine .onChange payload)

def onSubmit (handler : Handler) (engine : Engine) (record : Dict Json) : Script (Option Run) :=
  .perform (.store (.mergeForm record))
    (handler.fire engine .onSubmit { value := .ofDict record })

def onLoad (handler : Handler) (engine : Engine) : Script (Option Run) :=
  handler.fire engine .onLoad {}

/-- The record that a submitted value stands for; only objects are records. -/
def submitted : Json → Dict Json
  | .obj members => Dict.ofList members
  | _ => ∅

/-- Handles any trigger.  A load takes no payload, and a submit no target. -/
def handle (handler : Handler) (engine : Engine) (trigger : Trigger) (payload : Payload) :
    Script (Option Run) :=
  match trigger with
  | .onClick => handler.onClick engine payload
  | .onChange => handler.onChange engine payload
  | .onSubmit => handler.onSubmit engine (submitted payload.value)
  | .onLoad => handler.onLoad engine

end Handler

end LivePage
