import LivePage.Page.Definition

/-!
# Schema of pages

The JSON Schema that describes page definitions, for editors and other tools.
Keywords stand in the order in which they are written out; properties are in
ascending order.
-/

namespace LivePage

/-- A schema as its keywords in written order. -/
abbrev Schema := List (String × Json)

namespace Schema

def toJson (schema : Schema) : Json :=
  .obj schema

def described (text : String) (schema : Schema) : Schema :=
  ("description", .str text) :: schema

def defaulting (value : Json) (schema : Schema) : Schema :=
  schema ++ [("default", value)]

def ofType (name : String) : Schema :=
  [("type", .str name)]

def orNull (name : String) : Schema :=
  [("type", .arr [.str name, .str "null"])]

/-- What is defined under a name. -/
def ref (name : String) : Schema :=
  [("$ref", .str ("#/$defs/" ++ name))]

/-- What is defined under a name, or null. -/
def refOrNull (name : String) : Schema :=
  [("anyOf", .arr [toJson (ref name), toJson (ofType "null")])]

def names (values : List String) : Schema :=
  ofType "string" ++ [("enum", .arr (values.map .str))]

def exactly (value : String) : Schema :=
  ofType "string" ++ [("const", .str value)]

def anyObject : Schema :=
  ofType "object" ++ [("additionalProperties", .bool true)]

def anyObjectOrNull : Schema :=
  orNull "object" ++ [("additionalProperties", .bool true)]

/-- A natural number of 64 bits, or null. -/
def wordOrNull (default : List (String × Json)) : Schema :=
  orNull "integer" ++ [("format", .str "uint64")] ++ default ++ [("minimum", .ofNat 0)]

def listOf (items : Schema) : Schema :=
  defaulting (.arr []) (ofType "array") ++ [("items", items.toJson)]

/-- An object with some properties, of which some are required. -/
def object (properties : List (String × Json)) (required : List String) : Schema :=
  ofType "object" ++ [("properties", .ofMembers properties)] ++
    (if required.isEmpty then [] else [("required", .arr (required.map .str))])

/-- An object with some properties and a tag. -/
def tagged (tag : String) (properties : List (String × Json)) (required : List String) :
    Schema :=
  object (("type", toJson (exactly tag)) :: properties) ("type" :: required)

def text : Json := toJson (ofType "string")

def textOrNull : Json := toJson (orNull "string")

def methods : Schema :=
  names ([.get, .post, .put, .patch, .delete].map HttpMethod.name)

def toastKinds : Schema :=
  names ([.success, .error, .warning, .info].map ToastKind.name)

def visibilities : Schema :=
  names ([.showIt, .hideIt, .toggle].map VisibilityChange.name)

def triggers : Schema :=
  described "The interaction that fires a component event."
    (names ([.onClick, .onChange, .onSubmit, .onLoad].map Trigger.name))

def knownOperators : List Operator :=
  [.equals, .notEquals, .contains, .notContains, .startsWith, .endsWith, .greaterThan,
    .greaterThanOrEqual, .lessThan, .lessThanOrEqual, .isEmpty, .isNotEmpty, .isTrue, .isFalse]

def operators : Schema :=
  [("oneOf", .arr [toJson (names (knownOperators.map Operator.name)),
    toJson (described "Unrecognised operator; always evaluates to false."
      (exactly Operator.unknown.name))])]

def conditions : Schema :=
  described "Structured boolean predicate: `field <operator> value`." <|
    object
      [("field", toJson (described
          "Context path (`form.status`) or a template (`\x7b\x7bform.status\x7d\x7d`)."
          (ofType "string"))),
        ("operator", toJson (ref "Operator")),
        ("value", toJson (described
          "Comparison value; string leaves are evaluated as templates." []))]
      ["field", "operator"]

def actionKinds : List Schema :=
  [described "Issue an HTTP request through the HTTP collaborator." <|
      tagged "callApi"
        [("apiPath", text),
          ("apiMethod", toJson (defaulting HttpMethod.get.encode (ref "HttpMethod"))),
          ("apiBody", toJson (described "String leaves are evaluated as templates." [])),
          ("apiHeaders", toJson anyObjectOrNull)]
        ["apiPath"],
    described "Write a value into another component's state." <|
      tagged "setValue"
        [("targetComponent", text), ("value", toJson (defaulting .null [])),
          ("targetField", toJson (described
            "Additional key the value is stored under (state and form)." (orNull "string")))]
        ["targetComponent"],
    described "Merge a filter parameter into a component and ask it to reload." <|
      tagged "filterData"
        [("targetComponent", text), ("filterField", text),
          ("filterValue", toJson (defaulting .null []))]
        ["targetComponent", "filterField"],
    tagged "navigate"
      [("url", text), ("openInNewTab", toJson (defaulting (.bool false) (ofType "boolean")))]
      ["url"],
    tagged "showToast"
      [("message", text),
        ("toastType", toJson (defaulting ToastKind.info.encode (ref "ToastKind"))),
        ("title", textOrNull),
        ("duration", toJson (described "Display duration in milliseconds." (wordOrNull [])))]
      ["message"],
    tagged "showModal" [("modalId", text), ("title", textOrNull), ("content", textOrNull)]
      ["modalId"],
    tagged "closeModal" [("modalId", text)] ["modalId"],
    described "Force a component to reload through its refresh listener." <|
      tagged "refresh" [("targetComponent", text)] ["targetComponent"],
    tagged "setVisibility"
      [("targetComponent", text),
        ("visibility", toJson
          (defaulting VisibilityChange.toggle.encode (ref "VisibilityChange")))]
      ["targetComponent"],
    tagged "setLoading"
      [("targetComponent", text),
        ("loading", toJson (defaulting (.bool true) (ofType "boolean")))]
      ["targetComponent"],
    described "Reserved for reusable named action groups. Currently a no-op." <|
      tagged "runActions" [("actionGroup", textOrNull)] [],
    described "Any `type` this runtime does not know." <| tagged "unknown" [] []]

def branch : Json :=
  toJson (orNull "array" ++ [("items", toJson (ref "Action"))])

def actions : Schema :=
  described
    ("A declarative, side-effecting step in an event's script.\n\n" ++
      "The JSON shape is a single object tagged by `\"type\"`; the shared options\n" ++
      "(`condition`, `delay`, `async`, `onSuccess`, `onError`) sit next to the\n" ++
      "variant-specific fields:\n\n" ++
      "```json\n\x7b \"type\": \"callApi\", \"apiPath\": \"/orders/\x7b\x7bevent.value\x7d\x7d\", " ++
      "\"onError\": [ ... ] \x7d\n```") <|
    object
      [("condition", toJson (described
          "Guard; when it evaluates false the action is skipped as a success."
          (refOrNull "Condition"))),
        ("delay", toJson (described "Delay in milliseconds before the action runs."
          (wordOrNull []))),
        ("async", toJson (described
          "Fire-and-forget: the sequence does not wait for this action."
          (defaulting (.bool false) (ofType "boolean")))),
        ("onSuccess", branch), ("onError", branch)]
      [] ++
    [("oneOf", .arr (actionKinds.map toJson))]

def bindings : Schema :=
  described "A trigger-kind-to-action-list binding declared on a component." <|
    object
      [("type", toJson (ref "TriggerKind")),
        ("enabled", toJson (defaulting (.bool true) (ofType "boolean"))),
        ("condition", toJson (refOrNull "Condition")),
        ("actions", toJson (listOf (ref "Action")))]
      ["type"]

def componentStates : Schema :=
  described
    "Runtime state of one component. Also used as a patch: `None` fields are left alone." <|
    object
      [("value", .bool true), ("loading", toJson (orNull "boolean")),
        ("visible", toJson (orNull "boolean")),
        ("data", toJson (described "Payload of the last fetch." [])),
        ("error", textOrNull), ("filterParams", toJson anyObjectOrNull)]
      [] ++
    [("additionalProperties", .bool true)]

def components : Schema :=
  object
    [("initialState", toJson (refOrNull "ComponentRuntimeState")),
      ("events", toJson (listOf (ref "ComponentEvent")))]
    []

def settings : Schema :=
  object
    [("baseUrl", toJson (described "Base URL for relative `callApi` paths." (orNull "string"))),
      ("locale", toJson (described "Locale prefixed to in-app navigation paths."
        (orNull "string"))),
      ("locales", toJson (described "Locales recognised as an existing path prefix."
        (listOf (ofType "string")))),
      ("maxDepth", toJson (described "Maximum nesting depth of onSuccess/onError branches."
        (ofType "integer" ++ [("format", .str "uint"),
          ("default", .ofNat ({ } : Settings).maxDepth), ("minimum", .ofNat 0)]))),
      ("defaultToastMs", toJson (described
        "Toast duration used when a `showToast` action omits one." (wordOrNull [])))]
    []

def routes : Schema :=
  described "Route-derived values captured when the page session starts." <|
    object
      [("params", toJson (defaulting (.obj []) anyObject)),
        ("query", toJson (defaulting (.obj []) anyObject))]
      []

def users : Schema :=
  described "Read-only identity snapshot." <|
    object [("id", textOrNull), ("name", textOrNull), ("email", textOrNull), ("role", textOrNull)]
      []

def sources : Schema :=
  described
    ("Trigger source configuration.\nUse `type` to select a variant:\n" ++
      "- \"file\": poll a file of newline-delimited trigger records\n" ++
      "- \"stdin\": read newline-delimited trigger records from standard input")
    [("oneOf", .arr [
      toJson (tagged "file"
        [("path", toJson (described "Absolute or relative path to the file." (ofType "string"))),
          ("pollMs", toJson (described "Poll interval in milliseconds (default: 100)."
            (wordOrNull [("default", .null)]))),
          ("deleteOnSuccess", toJson (described
            "Delete the file after its records were dispatched (default: false)."
            (defaulting .null (orNull "boolean"))))]
        ["path"]),
      toJson (tagged "stdin" [] [])])]

/-- The schemas that others refer to, by name. -/
def definitions : Json :=
  .ofMembers ([("Action", actions), ("ComponentDefinition", components),
    ("ComponentEvent", bindings), ("ComponentRuntimeState", componentStates),
    ("Condition", conditions), ("EngineSettings", settings), ("HttpMethod", methods),
    ("Operator", operators), ("PageInfo", routes), ("SourceConfig", sources),
    ("ToastKind", toastKinds), ("TriggerKind", triggers), ("UserInfo", users),
    ("VisibilityChange", visibilities)].map fun (name, schema) => (name, toJson schema))

def pageProperties : List (String × Json) :=
  [("settings", toJson (defaulting ({ } : Settings).encode (ref "EngineSettings"))),
    ("page", toJson (defaulting ({ } : Route).encode (ref "PageInfo"))),
    ("user", toJson (defaulting ({ } : User).encode (ref "UserInfo"))),
    ("form", toJson (defaulting (.obj []) anyObject)),
    ("components", toJson (defaulting (.obj [])
      (ofType "object" ++ [("additionalProperties", toJson (ref "ComponentDefinition"))]))),
    ("sources", toJson (described
      "Trigger sources (stdin, file). The CLI falls back to stdin when empty."
      (listOf (ref "SourceConfig"))))]

def page : Json :=
  toJson <|
    [("$schema", .str "https://json-schema.org/draft/2020-12/schema"),
      ("title", .str "PageDefinition"),
      ("description", .str
        ("Root document describing one live page.\n\n" ++
          "This structure is intended to be deserialized from a JSON file.\n" ++
          "It captures everything the runtime needs for a page session:\n" ++
          "- engine `settings` (base URL, locale, limits)\n" ++
          "- route-derived `page` values and the `user` snapshot\n" ++
          "- initial `form` values\n" ++
          "- `components` with their initial state and declared events\n" ++
          "- trigger `sources` used by the CLI"))] ++
    object pageProperties [] ++ [("$defs", definitions)]

end Schema

end LivePage
