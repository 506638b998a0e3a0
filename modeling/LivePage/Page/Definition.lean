import LivePage.Page.Action
import LivePage.Store.Component

/-!
# Page definitions

The document that describes one live page: its settings, the values it starts
with, its components with the actions bound to their triggers, and the sources
that triggers come from.
-/

namespace LivePage

/-- Actions bound to a trigger of a component. -/
structure Binding where
  trigger : Trigger
  enabled : Bool := true
  condition : Option Condition := none
  actions : List Action := []
deriving Inhabited

namespace Binding

def decode? : Json.Decoder Binding := fun j => do
  let fields ← Json.fields? ["type", "enabled", "condition", "actions"] j
  return {
    trigger := ← fields.required "type" Trigger.decode?
    enabled := ← fields.withDefault "enabled" true Json.bool?
    condition := ← fields.optional "condition" Condition.decode?
    actions := ← fields.withDefault "actions" [] (Json.list? Action.decode?) }

def encode (binding : Binding) : Json :=
  .ofMembers ([("type", binding.trigger.encode), ("enabled", .bool binding.enabled),
    ("actions", Json.ofList Action.encode binding.actions)] ++
    Json.member "condition" Condition.encode binding.condition)

def shape : Json.Shape :=
  .record [("type", Trigger.shape, .required),
    ("enabled", .bool, .optional), ("condition", .optional Condition.shape, .optional),
    ("actions", .list Action.shape, .optional)]

end Binding

/-- A component of a page. -/
structure Component where
  initialState : Option ComponentState := none
  bindings : List Binding := []
deriving Inhabited

namespace Component

def decode? : Json.Decoder Component := fun j => do
  let fields ← Json.fields? ["initialState", "events"] j
  return {
    initialState := ← fields.optional "initialState" ComponentState.decode?
    bindings := ← fields.withDefault "events" [] (Json.list? Binding.decode?) }

def encode (component : Component) : Json :=
  .ofMembers ([("events", Json.ofList Binding.encode component.bindings)] ++
    Json.member "initialState" ComponentState.encode component.initialState)

def shape : Json.Shape :=
  .record [("initialState", .optional ComponentState.shape, .optional),
    ("events", .list Binding.shape, .optional)]

end Component

/-- Settings of a page. -/
structure Settings where
  /-- What relative request paths are resolved against. -/
  baseUrl : Option String := none
  /-- The locale put in front of routes. -/
  locale : Option String := none
  /-- The locales that a route may already begin with. -/
  locales : List String := []
  /-- How deep branches of actions may nest. -/
  maxDepth : Nat := 64
  /-- How long a toast shows, in milliseconds, unless it says so itself. -/
  defaultToastMs : Option Nat := none
deriving DecidableEq, Repr, Inhabited

namespace Settings

def decode? : Json.Decoder Settings := fun j => do
  let fields ← Json.fields? ["baseUrl", "locale", "locales", "maxDepth", "defaultToastMs"] j
  return {
    baseUrl := ← fields.optional "baseUrl" Json.text?
    locale := ← fields.optional "locale" Json.text?
    locales := ← fields.withDefault "locales" [] (Json.list? Json.text?)
    maxDepth := ← fields.withDefault "maxDepth" 64 (Json.natBelow? Json.word64)
    defaultToastMs := ← fields.optional "defaultToastMs" (Json.natBelow? Json.word64) }

def encode (settings : Settings) : Json :=
  .ofMembers (Json.member "baseUrl" .str settings.baseUrl ++
    Json.member "locale" .str settings.locale ++
    [("locales", Json.ofList .str settings.locales), ("maxDepth", .ofNat settings.maxDepth)] ++
    Json.member "defaultToastMs" .ofNat settings.defaultToastMs)

def shape : Json.Shape :=
  .record [("baseUrl", .optional .text, .optional), ("locale", .optional .text, .optional),
    ("locales", .list .text, .optional), ("maxDepth", .nat Json.word64, .optional),
    ("defaultToastMs", .optional (.nat Json.word64), .optional)]

end Settings

/-- Where trigger records come from. -/
inductive Source where
  /-- A file that is polled for lines. -/
  | file (path : String) (pollMs : Option Nat) (deleteOnSuccess : Option Bool)
  /-- The lines of standard input. -/
  | stdin
deriving DecidableEq, Repr, Inhabited

namespace Source

def name : Source → String
  | file .. => "file"
  | stdin => "stdin"

/-- Whether a tag names a kind of source. -/
def isTag (tag : String) : Bool :=
  tag == "file" || tag == "stdin"

/-- The fields of a file source in declared order. -/
def fileFields : List String :=
  ["path", "pollMs", "deleteOnSuccess"]

/-- A file source with these fields. -/
def ofFields? (fields : Json.Fields) : Option Source := do
  return file (← fields.required "path" Json.text?)
    (← fields.optional "pollMs" (Json.natBelow? Json.word64))
    (← fields.optional "deleteOnSuccess" Json.bool?)

/-- A source is tagged by its `type`; in an array the tag comes first. -/
def decode? : Json.Decoder Source
  | .arr (.str tag :: rest) =>
      if tag = "file" then (Json.fields? fileFields (.arr rest)).bind ofFields?
      else if tag = "stdin" ∧ rest.isEmpty then some stdin
      else none
  | .obj members => do
      let fields ← Json.members? ["type"] (.obj members)
      let tag ← fields.required "type" Json.text?
      if tag = "file" then (Json.members? fileFields (.obj members)).bind ofFields?
      else if tag = "stdin" then some stdin
      else none
  | _ => none

def encode : Source → Json
  | file path pollMs deleteOnSuccess =>
      .ofMembers [("type", .str "file"), ("path", .str path),
        ("pollMs", .ofOption (pollMs.map .ofNat)),
        ("deleteOnSuccess", .ofOption (deleteOnSuccess.map .bool))]
  | stdin => .ofMembers [("type", .str "stdin")]

def shape : Json.Shape :=
  .tagged "type" isTag fun j => (decode? j).isSome

end Source

/-- The definition of a page. -/
structure Page where
  settings : Settings := {}
  route : Route := {}
  user : User := {}
  form : Dict Json := ∅
  components : Dict Component := ∅
  sources : List Source := []
deriving Inhabited

namespace Page

def decode? : Json.Decoder Page := fun j => do
  let fields ← Json.fields? ["settings", "page", "user", "form", "components", "sources"] j
  return {
    settings := ← fields.withDefault "settings" {} Settings.decode?
    route := ← fields.withDefault "page" {} Route.decode?
    user := ← fields.withDefault "user" {} User.decode?
    form := ← fields.withDefault "form" ∅ (Json.dict? Json.document?)
    components := ← fields.withDefault "components" ∅ (Json.dict? Component.decode?)
    sources := ← fields.withDefault "sources" [] (Json.list? Source.decode?) }

def encode (page : Page) : Json :=
  .ofMembers [("settings", page.settings.encode), ("page", page.route.encode),
    ("user", page.user.encode), ("form", .ofDict page.form),
    ("components", Json.ofValues Component.encode page.components),
    ("sources", Json.ofList Source.encode page.sources)]

def shape : Json.Shape :=
  .record [("settings", Settings.shape, .optional), ("page", Route.shape, .optional),
    ("user", User.shape, .optional), ("form", .dict .any, .optional),
    ("components", .dict Component.shape, .optional), ("sources", .list Source.shape, .optional)]

end Page

end LivePage
