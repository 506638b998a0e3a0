import LivePage.Expression.Condition

/-!
# Component states

What is known of one component at run time: six fields of its own and any number
of further ones.  The same type serves as a patch, in which an absent field
leaves the field of the state alone.  A further field never has the name of a
built-in one, as far as the writers here go.
-/

namespace LivePage

/-- What an action does to the visibility of a component. -/
inductive VisibilityChange where
  | showIt
  | hideIt
  | toggle
deriving DecidableEq, Repr, Inhabited

namespace VisibilityChange

def name : VisibilityChange → String
  | showIt => "show"
  | hideIt => "hide"
  | toggle => "toggle"

def ofName? : String → Option VisibilityChange
  | "show" => some showIt
  | "hide" => some hideIt
  | "toggle" => some toggle
  | _ => none

def decode? : Json.Decoder VisibilityChange :=
  Json.choice? ofName?

def encode (change : VisibilityChange) : Json :=
  .str change.name

def shape : Json.Shape :=
  .choice fun name => (ofName? name).isSome

/-- The visibility after the change. -/
def apply (change : VisibilityChange) (visible : Bool) : Bool :=
  match change with
  | showIt => true
  | hideIt => false
  | toggle => !visible

theorem ofName?_name (change : VisibilityChange) : ofName? change.name = some change := by
  cases change <;> rfl

end VisibilityChange

/-- The state of one component, or a patch for it. -/
structure ComponentState where
  value : Option Json := none
  loading : Option Bool := none
  visible : Option Bool := none
  /-- What was last fetched for the component. -/
  data : Option Json := none
  error : Option String := none
  filterParams : Option (Dict Json) := none
  /-- Fields under other names. -/
  extra : Dict Json := ∅
deriving Inhabited

namespace ComponentState

def builtinNames : List String :=
  ["value", "loading", "visible", "data", "error", "filterParams"]

/-- Every other member of a document is a further field. -/
def decode? : Json.Decoder ComponentState
  | .obj members => do
      let fields ← Json.members? builtinNames (.obj members)
      return {
        value := ← fields.optional "value" Json.document?
        loading := ← fields.optional "loading" Json.bool?
        visible := ← fields.optional "visible" Json.bool?
        data := ← fields.optional "data" Json.document?
        error := ← fields.optional "error" Json.text?
        filterParams := ← fields.optional "filterParams" (Json.dict? Json.document?)
        extra := (Dict.ofList members).filterKeys fun key => !builtinNames.contains key }
  | _ => none

def builtinMembers (state : ComponentState) : List (String × Json) :=
  Json.member "value" id state.value ++ Json.member "loading" .bool state.loading ++
    Json.member "visible" .bool state.visible ++ Json.member "data" id state.data ++
    Json.member "error" .str state.error ++
    Json.member "filterParams" Json.ofDict state.filterParams

def encode (state : ComponentState) : Json :=
  .ofMembers (state.builtinMembers ++ state.extra.entries)

def shape : Json.Shape :=
  .extensible [("value", .optional .any, .optional), ("loading", .optional .bool, .optional),
    ("visible", .optional .bool, .optional), ("data", .optional .any, .optional),
    ("error", .optional .text, .optional), ("filterParams", .optional (.dict .any), .optional)]

/-- The state with the fields of a patch written over it. -/
def merge (state patch : ComponentState) : ComponentState where
  value := patch.value.or state.value
  loading := patch.loading.or state.loading
  visible := patch.visible.or state.visible
  data := patch.data.or state.data
  error := patch.error.or state.error
  filterParams := patch.filterParams.or state.filterParams
  extra := state.extra.union patch.extra

/-- The truth value that a flag is set to; null clears it. -/
def flag (value : Json) : Option Bool :=
  if value.isNull then none else some value.isTruthy

/-- The text that an error is set to; null clears it. -/
def errorText : Json → Option String
  | .null => none
  | j => some j.plainText

/-- Writes a value under a key.  Built-in keys take the type of their field;
filter parameters that are neither an object nor null are ignored. -/
def setField (state : ComponentState) (key : String) (value : Json) : ComponentState :=
  match key with
  | "value" => { state with value := some value }
  | "data" => { state with data := some value }
  | "loading" => { state with loading := flag value }
  | "visible" => { state with visible := flag value }
  | "error" => { state with error := errorText value }
  | "filterParams" =>
      match value with
      | .obj members => { state with filterParams := some (Dict.ofList members) }
      | .null => { state with filterParams := none }
      | _ => state
  | _ => { state with extra := state.extra.insert key value }

/-- Whether the component shows; it does unless it is hidden. -/
def isVisible (state : ComponentState) : Bool :=
  state.visible.getD true

def isLoading (state : ComponentState) : Bool :=
  state.loading.getD false

def withValue (value : Json) : ComponentState :=
  { value := some value }

/-- The patch that sets the loading flag. -/
def withLoading (loading : Bool) : ComponentState :=
  { loading := some loading }

def withVisible (visible : Bool) : ComponentState :=
  { visible := some visible }

/-- The state that a component starts from. -/
def seed : ComponentState :=
  { visible := some true, loading := some false }

/-- A read-modify-write step on one component. -/
inductive Edit where
  /-- Merges a patch. -/
  | merge (patch : ComponentState)
  /-- Sets the value, and a further field if one is named. -/
  | assign (value : Json) (name : Option String)
  /-- Sets one filter parameter. -/
  | filter (name : String) (value : Json)
  /-- Changes the visibility. -/
  | visibility (change : VisibilityChange)
  /-- Writes a value under a key. -/
  | field (key : String) (value : Json)

/-- The state after an edit. -/
def Edit.apply (state : ComponentState) : Edit → ComponentState
  | .merge patch => state.merge patch
  | .assign value named =>
      let state := { state with value := some value }
      match named with
      | none => state
      | some key => state.setField key value
  | .filter name value =>
      { state with filterParams := some ((state.filterParams.getD ∅).insert name value) }
  | .visibility change => { state with visible := some (change.apply state.isVisible) }
  | .field key value => state.setField key value

end ComponentState

end LivePage
