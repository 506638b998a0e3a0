import LivePage.Http.Message
import LivePage.Store.Component

/-!
# Actions

An action is one step of an event's script: what it does (its kind), the options
it shares with all other kinds, and the actions that run when it succeeds or
fails.  In documents an action is one flat object; the tag `type` names the
kind, and an action with a tag that is not known is kept as unknown.
-/

namespace LivePage

/-- The look of a toast. -/
inductive ToastKind where
  | success
  | error
  | warning
  | info
deriving DecidableEq, Repr, Inhabited

namespace ToastKind

def name : ToastKind → String
  | success => "success"
  | error => "error"
  | warning => "warning"
  | info => "info"

def ofName? : String → Option ToastKind
  | "success" => some success
  | "error" => some error
  | "warning" => some warning
  | "info" => some info
  | _ => none

def decode? : Json.Decoder ToastKind :=
  Json.choice? ofName?

def encode (kind : ToastKind) : Json :=
  .str kind.name

def shape : Json.Shape :=
  .choice fun name => (ofName? name).isSome

theorem ofName?_name (kind : ToastKind) : ofName? kind.name = some kind := by
  cases kind <;> rfl

end ToastKind

/-- What an action does.  Strings inside values are templates. -/
inductive ActionKind where
  /-- Sends an HTTP request. -/
  | callApi (path : Template) (method : HttpMethod) (body : Option Json)
      (headers : Option (Dict Json))
  /-- Writes the value of a component, and of a further field of it and of the
  form. -/
  | setValue (component : String) (value : Json) (field : Option String)
  /-- Writes a filter parameter of a component and asks it to reload. -/
  | filterData (component field : String) (value : Json)
  /-- Changes the route, or opens a new tab. -/
  | navigate (url : Template) (newTab : Bool)
  | showToast (message : Template) (kind : ToastKind) (title : Option Template)
      (duration : Option Nat)
  | showModal (id : String) (title content : Option Template)
  | closeModal (id : String)
  /-- Asks a component to reload. -/
  | refresh (component : String)
  | setVisibility (component : String) (change : VisibilityChange)
  | setLoading (component : String) (loading : Bool)
  /-- Kept for named groups of actions; does nothing. -/
  | runActions (group : Option String)
  /-- Any kind that is not known. -/
  | unknown
deriving Inhabited

/-- One step of a script. -/
structure Action where
  kind : ActionKind
  /-- Where it does not hold, the action is skipped as a success. -/
  condition : Option Condition := none
  /-- Milliseconds to wait before the action. -/
  delay : Option Nat := none
  /-- Whether the script goes on without waiting for the action. -/
  detached : Bool := false
  onSuccess : Option (List Action) := none
  onError : Option (List Action) := none
deriving Inhabited

namespace ActionKind

/-- The tags of the kinds in declared order; a tag may also be given by its
place here. -/
def tags : List String :=
  ["callApi", "setValue", "filterData", "navigate", "showToast", "showModal", "closeModal",
    "refresh", "setVisibility", "setLoading", "runActions", "unknown"]

def name : ActionKind → String
  | callApi .. => "callApi"
  | setValue .. => "setValue"
  | filterData .. => "filterData"
  | navigate .. => "navigate"
  | showToast .. => "showToast"
  | showModal .. => "showModal"
  | closeModal .. => "closeModal"
  | refresh .. => "refresh"
  | setVisibility .. => "setVisibility"
  | setLoading .. => "setLoading"
  | runActions .. => "runActions"
  | unknown => "unknown"

def method? : ActionKind → Option HttpMethod
  | callApi _ method _ _ => some method
  | _ => none

/-- A tag, or the tag at a place. -/
def tag? : Json.Decoder String
  | .str tag => some tag
  | .num (.int i) => if 0 ≤ i then some (tags[i.toNat]?.getD "unknown") else none
  | _ => none

/-- The fields of a kind, if none of them comes twice. -/
def decodeTagged? (tag : String) (members : Json.Fields) : Option ActionKind :=
  let fields? (names : List String) := Json.members? names (.obj members)
  match tag with
  | "callApi" => do
      let fields ← fields? ["apiPath", "apiMethod", "apiBody", "apiHeaders"]
      return callApi (← fields.required "apiPath" Template.decode?)
        (← fields.withDefault "apiMethod" .get HttpMethod.decode?)
        (← fields.optional "apiBody" Json.document?)
        (← fields.optional "apiHeaders" (Json.dict? Json.document?))
  | "setValue" => do
      let fields ← fields? ["targetComponent", "value", "targetField"]
      return setValue (← fields.required "targetComponent" Json.text?)
        (← fields.withDefault "value" .null Json.document?)
        (← fields.optional "targetField" Json.text?)
  | "filterData" => do
      let fields ← fields? ["targetComponent", "filterField", "filterValue"]
      return filterData (← fields.required "targetComponent" Json.text?)
        (← fields.required "filterField" Json.text?)
        (← fields.withDefault "filterValue" .null Json.document?)
  | "navigate" => do
      let fields ← fields? ["url", "openInNewTab"]
      return navigate (← fields.required "url" Template.decode?)
        (← fields.withDefault "openInNewTab" false Json.bool?)
  | "showToast" => do
      let fields ← fields? ["message", "toastType", "title", "duration"]
      return showToast (← fields.required "message" Template.decode?)
        (← fields.withDefault "toastType" .info ToastKind.decode?)
        (← fields.optional "title" Template.decode?)
        (← fields.optional "duration" (Json.natBelow? Json.word64))
  | "showModal" => do
      let fields ← fields? ["modalId", "title", "content"]
      return showModal (← fields.required "modalId" Json.text?)
        (← fields.optional "title" Template.decode?)
        (← fields.optional "content" Template.decode?)
  | "closeModal" => do
      let fields ← fields? ["modalId"]
      return closeModal (← fields.required "modalId" Json.text?)
  | "refresh" => do
      let fields ← fields? ["targetComponent"]
      return refresh (← fields.required "targetComponent" Json.text?)
  | "setVisibility" => do
      let fields ← fields? ["targetComponent", "visibility"]
      return setVisibility (← fields.required "targetComponent" Json.text?)
        (← fields.withDefault "visibility" .toggle VisibilityChange.decode?)
  | "setLoading" => do
      let fields ← fields? ["targetComponent", "loading"]
      return setLoading (← fields.required "targetComponent" Json.text?)
        (← fields.withDefault "loading" true Json.bool?)
  | "runActions" => do
      let fields ← fields? ["actionGroup"]
      return runActions (← fields.optional "actionGroup" Json.text?)
  | _ => some unknown

/-- The kind that an object's tag names, with its fields. -/
def decode? (members : Json.Fields) : Option ActionKind := do
  let fields ← Json.members? ["type"] (.obj members)
  decodeTagged? (← fields.required "type" tag?) members

/-- The members of a kind besides the tag. -/
def members : ActionKind → List (String × Json)
  | callApi path method body headers =>
      [("apiPath", path.encode), ("apiMethod", method.encode)] ++
        Json.member "apiBody" id body ++ Json.member "apiHeaders" Json.ofDict headers
  | setValue component value field =>
      [("targetComponent", .str component), ("value", value)] ++
        Json.member "targetField" .str field
  | filterData component field value =>
      [("targetComponent", .str component), ("filterField", .str field),
        ("filterValue", value)]
  | navigate url newTab => [("url", url.encode), ("openInNewTab", .bool newTab)]
  | showToast message kind title duration =>
      [("message", message.encode), ("toastType", kind.encode)] ++
        Json.member "title" Template.encode title ++ Json.member "duration" .ofNat duration
  | showModal id title content =>
      [("modalId", .str id)] ++ Json.member "title" Template.encode title ++
        Json.member "content" Template.encode content
  | closeModal id => [("modalId", .str id)]
  | refresh component => [("targetComponent", .str component)]
  | setVisibility component change =>
      [("targetComponent", .str component), ("visibility", change.encode)]
  | setLoading component loading =>
      [("targetComponent", .str component), ("loading", .bool loading)]
  | runActions group => Json.member "actionGroup" .str group
  | unknown => []

end ActionKind

namespace Action

def optionNames : List String :=
  ["condition", "delay", "async", "onSuccess", "onError"]

mutual

/-- Decodes an action: its kind, its options and its branches. -/
def decode? : Json → Option Action
  | .obj members => do
      let kind ← ActionKind.decode? members
      let fields ← Json.members? optionNames (.obj members)
      return {
        kind
        condition := ← fields.optional "condition" Condition.decode?
        delay := ← fields.optional "delay" (Json.natBelow? Json.word64)
        detached := ← fields.withDefault "async" false Json.bool?
        onSuccess := ← branchAt? "onSuccess" members
        onError := ← branchAt? "onError" members }
  | _ => none

def branchAt? (key : String) : List (String × Json) → Option (Option (List Action))
  | [] => some none
  | (k, j) :: rest => if k = key then branch? j else branchAt? key rest

def branch? : Json → Option (Option (List Action))
  | .null => some none
  | .arr items => (actions? items).map some
  | _ => none

/-- The actions of a list, if every one fits. -/
def actions? : List Json → Option (List Action)
  | [] => some []
  | j :: rest => do return (← decode? j) :: (← actions? rest)

end

mutual

/-- Encodes an action.  Absent options are left out, but the flag that detaches
it is always written. -/
def encode : Action → Json
  | ⟨kind, condition, delay, detached, onSuccess, onError⟩ =>
      .ofMembers ([("type", .str kind.name)] ++ kind.members ++
        Json.member "condition" Condition.encode condition ++
        Json.member "delay" .ofNat delay ++ [("async", .bool detached)] ++
        encodeBranch "onSuccess" onSuccess ++ encodeBranch "onError" onError)

def encodeBranch (key : String) : Option (List Action) → List (String × Json)
  | none => []
  | some actions => [(key, .arr (encodeList actions))]

def encodeList : List Action → List Json
  | [] => []
  | action :: rest => encode action :: encodeList rest

end

/-- An action in a document is judged as a whole. -/
def shape : Json.Shape :=
  .gathered fun j => (decode? j).isSome

/-- The actions of a branch; none where there is no branch. -/
def branch (actions : Option (List Action)) : List Action :=
  actions.getD []

/-- Whether failures of the action are handled: there is a branch for them, and
it is not empty. -/
def handlesErrors (action : Action) : Bool :=
  !(branch action.onError).isEmpty

mutual

/-- The number of actions in the tree. -/
def size : Action → Nat
  | ⟨_, _, _, _, onSuccess, onError⟩ => 1 + branchSize onSuccess + branchSize onError

def branchSize : Option (List Action) → Nat
  | none => 0
  | some actions => listSize actions

/-- The number of actions in a list of trees. -/
def listSize : List Action → Nat
  | [] => 0
  | action :: rest => size action + listSize rest

end

end Action

end LivePage
