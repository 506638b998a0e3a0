import LivePage.Routes
import LivePage.Run.Outcome

/-!
# Running actions

The meaning of actions as scripts.  A list runs in its order; a detached action
is started and left alone, and an action that fails without a branch for
failures ends the list.  The answer of a request is the response that the next
actions of its list see; what happens inside a branch stays there.
-/

namespace LivePage

/-- What running actions depends on besides the actions themselves. -/
structure Engine where
  /-- How deep branches may nest. -/
  maxDepth : Nat := 64
  /-- How long a toast shows unless it says so itself. -/
  defaultToastMs : Option Nat := none
  routes : Routes := {}
deriving Inhabited

namespace Engine

/-- The headers of a request: the values of templates, as text. -/
def headers (context : Context) (headers : Option (Dict Json)) : Dict String :=
  (headers.getD ∅).mapValues fun value => (value.interpolate context).plainText

/-- The effects of setting a value: a named field is written in the component and
in the form. -/
def setValueEffects (component : String) (value : Json) : Option String → List Effect
  | none => [.store (.edit component (.assign value none))]
  | some name =>
      [.store (.edit component (.assign value (some name))), .store (.setForm name value)]

/-- What an action of a kind does at once.  Requests have their effects in their
branches. -/
def effects (engine : Engine) (context : Context) : ActionKind → List Effect
  | .callApi .. => []
  | .setValue component value field =>
      setValueEffects component (value.interpolate context) field
  | .filterData component field value =>
      [.store (.edit component (.filter field (value.interpolate context))), .refresh component]
  | .navigate url newTab =>
      let target := engine.routes.normalize (url.render context)
      [.call (if newTab then .openTab target else .push target)]
  | .showToast message kind title duration =>
      [.call (.toast kind (message.render context) (title.map (·.render context))
        (duration.or engine.defaultToastMs))]
  | .showModal id title content =>
      [.call (.modal (.opened id (title.map (·.render context)) (content.map (·.render context))))]
  | .closeModal id => [.call (.modal (.closed id))]
  | .refresh component => [.refresh component]
  | .setVisibility component change => [.store (.edit component (.visibility change))]
  | .setLoading component loading =>
      [.store (.edit component (.merge (.withLoading loading)))]
  | .runActions _ => []
  | .unknown => []

/-- How an action of a kind without requests ends. -/
def outcome : ActionKind → Outcome
  | .unknown => .failure .unknownKind
  | _ => .success none

mutual

/-- Runs one action at a nesting depth: the depth and the condition are looked at
before the delay, and the context is the one from before it. -/
def runAction (engine : Engine) (depth : Nat) (context : Context) : Action → Script Outcome
  | ⟨kind, condition, delay, _, onSuccess, onError⟩ =>
      if engine.maxDepth < depth then pure (.failure (.tooDeep engine.maxDepth))
      else if !Condition.allows condition context then pure (.success none)
      else do
        Script.wait (delay.getD 0)
        match kind with
        | .callApi path method body headers =>
            let reply ← Script.send {
              method
              url := path.render context
              body := body.map (Json.interpolate context)
              headers := Engine.headers context headers }
            match reply with
            | .ok answer =>
                runBranch engine (depth + 1)
                  (context.withResponse (.ok answer.data (some answer.status))) onSuccess
                pure (.success (some answer))
            | .error error =>
                runBranch engine (depth + 1)
                  (context.withResponse (.failed error.message)) onError
                pure (.failure (.request error))
        | kind =>
            Script.performAll (engine.effects context kind)
            pure (outcome kind)

/-- Runs a branch; nothing of its run is kept. -/
def runBranch (engine : Engine) (depth : Nat) (context : Context) :
    Option (List Action) → Script Unit
  | none => pure ()
  | some actions => do
      let _ ← runList engine depth context actions
      pure ()

def runList (engine : Engine) (depth : Nat) (context : Context) : List Action → Script Run
  | [] => pure {}
  | action :: rest =>
      if action.detached then do
        let task ← Script.spawn { action, context, depth }
        let run ← runList engine depth context rest
        pure { run with detached := task :: run.detached }
      else do
        let outcome ← runAction engine depth context action
        if !outcome.succeeded && !action.handlesErrors then
          pure { success := false, outcomes := [outcome] }
        else
          let run ← runList engine depth (context.after outcome) rest
          pure { run with outcomes := outcome :: run.outcomes }

end

def runJob (engine : Engine) (job : Job) : Script Outcome :=
  engine.runAction job.depth job.context job.action

end Engine

end LivePage
