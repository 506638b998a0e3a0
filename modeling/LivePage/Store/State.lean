import LivePage.Page.Definition

/-!
# Page states

Everything that is known of one live page: the states of its components, the
form, and the route and user it was opened with.  All changes are changes of
this value by one operation at a time, given as data, so that a history of a
page is a list of operations.
-/

namespace LivePage

/-- The state of a live page. -/
structure PageState where
  components : Dict ComponentState := ∅
  form : Dict Json := ∅
  route : Route := {}
  user : User := {}
deriving Inhabited

/-- One change of a page state. -/
inductive StoreOp where
  /-- Adds a component unless it is there. -/
  | register (id : String) (initial : Option ComponentState)
  /-- Edits the state of a component, which is created if it is not there. -/
  | edit (id : String) (edit : ComponentState.Edit)
  /-- Forgets a component. -/
  | remove (id : String)
  /-- Writes one form value. -/
  | setForm (name : String) (value : Json)
  /-- Writes all values of a record into the form. -/
  | mergeForm (record : Dict Json)
deriving Inhabited

namespace PageState

/-- The state that a page starts from, before its components are registered. -/
def ofPage (page : Page) : PageState where
  form := page.form
  route := page.route
  user := page.user

def component? (state : PageState) (id : String) : Option ComponentState :=
  state.components.get? id

/-- The state of a component, or the empty one. -/
def componentOrNew (state : PageState) (id : String) : ComponentState :=
  (state.component? id).getD {}

/-- Adds a component in its initial state; one that is there is left alone. -/
def register (state : PageState) (id : String) (initial : Option ComponentState) : PageState :=
  match state.component? id with
  | some _ => state
  | none =>
      let seeded := match initial with
        | none => .seed
        | some initial => ComponentState.seed.merge initial
      { state with components := state.components.insert id seeded }

def edit (state : PageState) (id : String) (edit : ComponentState.Edit) : PageState :=
  { state with components := state.components.insert id (edit.apply (state.componentOrNew id)) }

def remove (state : PageState) (id : String) : PageState :=
  { state with components := state.components.erase id }

def setForm (state : PageState) (name : String) (value : Json) : PageState :=
  { state with form := state.form.insert name value }

/-- Writes all values of a record into the form. -/
def mergeForm (state : PageState) (record : Dict Json) : PageState :=
  { state with form := state.form.union record }

/-- The state after one change. -/
def apply (state : PageState) : StoreOp → PageState
  | .register id initial => state.register id initial
  | .edit id edit => state.edit id edit
  | .remove id => state.remove id
  | .setForm name value => state.setForm name value
  | .mergeForm record => state.mergeForm record

/-- The state after a history of changes. -/
def applyAll (state : PageState) (ops : List StoreOp) : PageState :=
  ops.foldl apply state

/-- What expressions see of the page when an event fires. -/
def snapshot (state : PageState) (event : Event) : Context where
  event := event
  form := state.form
  route := state.route
  user := state.user
  components := state.components.mapValues fun component => .ofOption component.value

def encodeComponents (state : PageState) : Json :=
  Json.ofValues ComponentState.encode state.components

def encode (state : PageState) : Json :=
  .ofMembers [("components", state.encodeComponents), ("form", .ofDict state.form),
    ("page", state.route.encode), ("user", state.user.encode)]

end PageState

end LivePage
