import LivePage.Page.Trigger
import LivePage.Path

/-!
# Contexts

What expressions are evaluated against: the event that fired, the form, the
route and the user of the page, the values of its components, and the response
to the most recent action.  A context is a value; running actions extend copies
of it and never write to it.
-/

namespace LivePage

/-- Values that came with the address of the page. -/
structure Route where
  params : Dict Json := ∅
  query : Dict Json := ∅
deriving Inhabited

namespace Route

def decode? : Json.Decoder Route := fun j => do
  let fields ← Json.fields? ["params", "query"] j
  return {
    params := ← fields.withDefault "params" ∅ (Json.dict? Json.document?)
    query := ← fields.withDefault "query" ∅ (Json.dict? Json.document?) }

def encode (route : Route) : Json :=
  .ofMembers [("params", .ofDict route.params), ("query", .ofDict route.query)]

def shape : Json.Shape :=
  .record [("params", .dict .any, .optional), ("query", .dict .any, .optional)]

end Route

/-- Who looks at the page. -/
structure User where
  id : Option String := none
  name : Option String := none
  email : Option String := none
  role : Option String := none
deriving DecidableEq, Repr, Inhabited

namespace User

def decode? : Json.Decoder User := fun j => do
  let fields ← Json.fields? ["id", "name", "email", "role"] j
  return {
    id := ← fields.optional "id" Json.text?
    name := ← fields.optional "name" Json.text?
    email := ← fields.optional "email" Json.text?
    role := ← fields.optional "role" Json.text? }

def encode (user : User) : Json :=
  .ofMembers (Json.member "id" .str user.id ++ Json.member "name" .str user.name ++
    Json.member "email" .str user.email ++ Json.member "role" .str user.role)

def shape : Json.Shape :=
  .record [("id", .optional .text, .optional), ("name", .optional .text, .optional),
    ("email", .optional .text, .optional), ("role", .optional .text, .optional)]

end User

/-- The interaction that a run answers. -/
structure Event where
  trigger : Option Trigger := none
  value : Json := .null
  target : Json := .null
deriving Repr, Inhabited

namespace Event

/-- An array gives the trigger in the first place, so it cannot be empty. -/
def decode? : Json.Decoder Event
  | .arr [] => none
  | j => do
      let fields ← Json.fields? ["type", "value", "target"] j
      return {
        trigger := ← fields.optional "type" Trigger.decode?
        value := ← fields.withDefault "value" .null Json.document?
        target := ← fields.withDefault "target" .null Json.document? }

def encode (event : Event) : Json :=
  .ofMembers [("type", .ofOption (event.trigger.map Trigger.encode)), ("value", event.value),
    ("target", event.target)]

/-- The event that expressions see. -/
def seen (event : Event) : Json :=
  .ofMembers [("type", .ofOption (event.trigger.map fun trigger => .str trigger.name)),
    ("value", event.value), ("target", event.target)]

def shape : Json.Shape :=
  .record [("type", .optional Trigger.shape, .positional), ("value", .any, .optional),
    ("target", .any, .optional)]

end Event

/-- The outcome of the most recent action. -/
structure Response where
  success : Bool
  data : Option Json := none
  status : Option Nat := none
  error : Option String := none
deriving Repr, Inhabited

namespace Response

/-- The response of an action that gave data. -/
def ok (data : Json) (status : Option Nat) : Response where
  success := true
  data := some data
  status := status

def failed (error : String) : Response where
  success := false
  error := some error

def decode? : Json.Decoder Response := fun j => do
  let fields ← Json.fields? ["success", "data", "status", "error"] j
  return {
    success := ← fields.required "success" Json.bool?
    data := ← fields.optional "data" Json.document?
    status := ← fields.optional "status" (Json.natBelow? Json.word16)
    error := ← fields.optional "error" Json.text? }

def encode (response : Response) : Json :=
  .ofMembers ([("success", .bool response.success)] ++ Json.member "data" id response.data ++
    Json.member "status" .ofNat response.status ++ Json.member "error" .str response.error)

def shape : Json.Shape :=
  .record [("success", .bool, .required), ("data", .optional .any, .optional),
    ("status", .optional (.nat Json.word16), .optional), ("error", .optional .text, .optional)]

end Response

/-- What expressions and conditions see. -/
structure Context where
  event : Event := {}
  form : Dict Json := ∅
  route : Route := {}
  user : User := {}
  /-- The value of every component by id. -/
  components : Dict Json := ∅
  response : Option Response := none
deriving Inhabited

namespace Context

def decode? : Json.Decoder Context := fun j => do
  let fields ← Json.fields? ["event", "form", "page", "user", "components", "response"] j
  return {
    event := ← fields.withDefault "event" {} Event.decode?
    form := ← fields.withDefault "form" ∅ (Json.dict? Json.document?)
    route := ← fields.withDefault "page" {} Route.decode?
    user := ← fields.withDefault "user" {} User.decode?
    components := ← fields.withDefault "components" ∅ (Json.dict? Json.document?)
    response := ← fields.optional "response" Response.decode? }

def encode (context : Context) : Json :=
  .ofMembers ([("event", context.event.encode), ("form", .ofDict context.form),
    ("page", context.route.encode), ("user", context.user.encode),
    ("components", .ofDict context.components)] ++
    Json.member "response" Response.encode context.response)

def shape : Json.Shape :=
  .record [("event", Event.shape, .optional), ("form", .dict .any, .optional),
    ("page", Route.shape, .optional), ("user", User.shape, .optional),
    ("components", .dict .any, .optional), ("response", .optional Response.shape, .optional)]

def withResponse (context : Context) (response : Response) : Context :=
  { context with response := some response }

/-- The value at a path.  Its first step picks a part of the context. -/
def resolve? (context : Context) (path : Path) : Option Json :=
  match path.root with
  | some "form" => context.form.walk? path.rest
  | some "components" => context.components.walk? path.rest
  | some "event" => context.event.seen.walk? path.rest
  | some "page" => context.route.encode.walk? path.rest
  | some "user" => context.user.encode.walk? path.rest
  | some "response" => context.response.bind fun response => response.encode.walk? path.rest
  | _ => none

/-- The value at a path given as text; null where the text is no path or leads
nowhere. -/
def lookup (context : Context) (text : String) : Json :=
  match Path.parse text with
  | .ok path => .ofOption (context.resolve? path)
  | .error _ => .null

end Context

end LivePage
