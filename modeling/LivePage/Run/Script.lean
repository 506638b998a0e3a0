import LivePage.Modal.Event
import LivePage.Store.State

/-!
# Scripts

What running actions does, as data: a script is a tree of steps, each of which
says what is done next and, where an answer is needed, what follows for every
answer.  A script neither knows the page it will run on nor the time at which it
will run, so two scripts that are equal behave alike under every schedule.
-/

namespace LivePage

/-- A request to the surroundings of a page that needs no answer. -/
inductive Call where
  /-- Shows a toast, for some milliseconds if a duration is given. -/
  | toast (kind : ToastKind) (message : String) (title : Option String) (duration : Option Nat)
  /-- Changes the route. -/
  | push (url : String)
  /-- Opens an address in a new tab. -/
  | openTab (url : String)
  | modal (event : ModalEvent)
deriving Inhabited

/-- One thing that a script does at once. -/
inductive Effect where
  | store (op : StoreOp)
  /-- Asks a component to reload. -/
  | refresh (component : String)
  | call (call : Call)
deriving Inhabited

/-- An action that runs on its own: the context and the nesting depth are those
of the place where it was started. -/
structure Job where
  action : Action
  context : Context
  depth : Nat
deriving Inhabited

/-- Names a task, in the order in which tasks are started. -/
abbrev TaskId := Nat

/-- The steps that lead to a result. -/
inductive Script (α : Type) where
  | done (result : α)
  | perform (effect : Effect) (next : Script α)
  /-- Looks at the state of the page as it is now. -/
  | observe (next : PageState → Script α)
  /-- Waits for some milliseconds. -/
  | pause (ms : Nat) (next : Script α)
  /-- Sends a request and waits for the reply. -/
  | request (request : HttpRequest) (next : HttpReply → Script α)
  /-- Starts a job and goes on without it. -/
  | start (job : Job) (next : TaskId → Script α)

namespace Script

instance [Inhabited α] : Inhabited (Script α) := ⟨.done default⟩

/-- The script followed by another one that depends on its result. -/
def bind : Script α → (α → Script β) → Script β
  | done a, f => f a
  | perform effect next, f => perform effect (next.bind f)
  | observe next, f => observe fun state => (next state).bind f
  | pause ms next, f => pause ms (next.bind f)
  | request message next, f => request message fun reply => (next reply).bind f
  | start job next, f => start job fun task => (next task).bind f

instance : Monad Script where
  pure := done
  bind := bind

/-- Performs effects one after the other. -/
def performAll : List Effect → Script Unit
  | [] => done ()
  | effect :: rest => perform effect (performAll rest)

/-- Waits, unless there is nothing to wait for. -/
def wait (ms : Nat) : Script Unit :=
  if ms = 0 then done () else pause ms (done ())

def send (message : HttpRequest) : Script HttpReply :=
  request message done

def spawn (job : Job) : Script TaskId :=
  start job done

@[simp]
theorem pure_eq (a : α) : (pure a : Script α) = done a := rfl

@[simp]
theorem bind_eq (s : Script α) (f : α → Script β) : s >>= f = s.bind f := rfl

@[simp]
theorem bind_done (s : Script α) : s.bind done = s := by
  induction s with
  | done => rfl
  | perform effect next ih => simp [bind, ih]
  | observe next ih => simp [bind, ih]
  | pause ms next ih => simp [bind, ih]
  | request message next ih => simp [bind, ih]
  | start job next ih => simp [bind, ih]

/-- Putting scripts one after the other is associative. -/
theorem bind_assoc (s : Script α) (f : α → Script β) (g : β → Script γ) :
    (s.bind f).bind g = s.bind fun a => (f a).bind g := by
  induction s with
  | done => rfl
  | perform effect next ih => simp [bind, ih]
  | observe next ih => simp [bind, ih]
  | pause ms next ih => simp [bind, ih]
  | request message next ih => simp [bind, ih]
  | start job next ih => simp [bind, ih]

instance : LawfulMonad Script :=
  LawfulMonad.mk' Script (fun s => bind_done s) (fun _ _ => rfl) (fun s f g => bind_assoc s f g)

end Script

end LivePage
