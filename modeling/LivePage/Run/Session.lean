import LivePage.Run.Handler

/-!
# Sessions

A live page: its definition, with a handler for every declared component.
Loading fires `onLoad` for all of them, and trigger records are routed to the
handler of the component that they name.
-/

namespace LivePage

/-- A live page. -/
structure Session where
  page : Page
  engine : Engine
  /-- The handlers of the declared components. -/
  handlers : Dict Handler
deriving Inhabited

/-- Why a trigger record is refused. -/
inductive DispatchError where
  | invalidRecord
  | unknownComponent (name : String)
deriving DecidableEq, Repr, Inhabited

namespace DispatchError

def message : DispatchError → String
  | invalidRecord => "Invalid trigger record"
  | unknownComponent name => "Unknown component '" ++ name ++ "'"

end DispatchError

namespace Session

/-- The engine that the settings of a page ask for. -/
def engineOf (settings : Settings) : Engine where
  maxDepth := settings.maxDepth
  defaultToastMs := settings.defaultToastMs
  routes := { locale := settings.locale, locales := settings.locales }

def handlersOf (components : List (String × Component)) : Dict Handler :=
  .ofList (components.map fun (id, component) =>
    (id, { component := id, bindings := component.bindings }))

def ofPage (page : Page) : Session where
  page := page
  engine := engineOf page.settings
  handlers := handlersOf page.components.entries

/-- The state of a page with all its components registered. -/
def initialState (page : Page) : PageState :=
  page.components.entries.foldl
    (fun state (id, component) => state.register id component.initialState)
    (PageState.ofPage page)

def handler? (session : Session) (component : String) : Option Handler :=
  session.handlers.get? component

/-- Fires `onLoad` for some handlers, one after the other; those that did not
fire are left out. -/
def loadAll (engine : Engine) : List (String × Handler) → Script (List (String × Run))
  | [] => pure []
  | (id, handler) :: rest => do
      let run ← handler.onLoad engine
      let runs ← loadAll engine rest
      pure (run.toList.map (id, ·) ++ runs)

/-- Fires `onLoad` for every declared component, in ascending order of ids. -/
def load (session : Session) : Script (List (String × Run)) :=
  loadAll session.engine session.handlers.entries

/-- Handles a trigger record. -/
def dispatch (session : Session) (record : TriggerRecord) :
    Script (Except DispatchError (Option Run)) :=
  match session.handler? record.component with
  | none => pure (.error (.unknownComponent record.component))
  | some handler => .ok <$> handler.handle session.engine record.trigger record.payload

/-- Handles a document that should be a trigger record. -/
def dispatchValue (session : Session) (raw : Json) :
    Script (Except DispatchError (Option Run)) :=
  match TriggerRecord.decode? raw with
  | none => pure (.error .invalidRecord)
  | some record => session.dispatch record

/-- Runs one action on the page as it is when an event fires. -/
def runAction (session : Session) (action : Action) (event : Event) : Script Outcome :=
  .observe fun state => session.engine.runAction 0 (state.snapshot event) action

end Session

end LivePage
