import LivePage.Run.Outcome
import LivePage.Store.Listeners

/-!
# Worlds

What scripts run on: the state of the page, the refresh listeners, and the
surroundings of the page.  The surroundings are a type of states of their own
with a few operations, so that a program with a console and one that only
records what it is asked for run the same scripts.
-/

namespace LivePage

/-- What reacts when a component is asked to reload: it may write to the page. -/
structure Listener where
  name : String
  writes : List StoreOp := []
deriving Inhabited

/-- The reply to a request, and how many milliseconds it takes. -/
structure Answer where
  delay : Nat := 0
  reply : HttpReply
deriving Inhabited

/-- The surroundings of a page, with states of type `σ`. -/
structure Host (σ : Type) where
  /-- Answers a request; the page is as it is when the request is sent. -/
  answer : PageState → HttpRequest → σ → Answer × σ
  call : Call → σ → σ
  /-- Learns that a listener was called. -/
  notify : Listener → σ → σ
  /-- Gets its turn when a script waits or ends. -/
  rest : σ → σ := id
  /-- A second turn right behind the first one changes nothing. -/
  rest_rest : ∀ state, rest (rest state) = rest state := by intros; rfl

/-- A page in its surroundings. -/
structure World (σ : Type) where
  page : PageState
  listeners : Listeners Listener := {}
  host : σ

namespace World

variable {σ : Type}

instance [Inhabited σ] : Inhabited (World σ) := ⟨{ page := default, host := default }⟩

/-- Calls a listener: the surroundings learn of it, and its writes are done. -/
def notify (host : Host σ) (world : World σ) (listener : Listener) : World σ :=
  { world with
    page := world.page.applyAll listener.writes
    host := host.notify listener world.host }

/-- Does one thing at once.  A refresh of a component without a listener does
nothing. -/
def perform (host : Host σ) (world : World σ) : Effect → World σ
  | .store op => { world with page := world.page.apply op }
  | .refresh component =>
      match world.listeners.listener? component with
      | some listener => world.notify host listener
      | none => world
  | .call call => { world with host := host.call call world.host }

end World

end LivePage
