import LivePage.Dict
import LivePage.Text.Quoted

/-!
# Refresh listeners

A component that can reload its data registers a listener under its id.  There
is at most one listener for an id; a later registration replaces the earlier
one.  Every registration gets a token of its own, so a subscription that has
been replaced can no longer take away its successor.
-/

namespace LivePage

/-- The listeners of a page by component id, each with its token. -/
structure Listeners (ℓ : Type) where
  lastToken : Nat := 0
  byId : Dict (Nat × ℓ) := ∅

/-- What a registration gives back; needed to take the listener away. -/
structure Subscription where
  id : String
  token : Nat
deriving DecidableEq, Repr, Inhabited

namespace Listeners

variable {ℓ : Type}

instance : Inhabited (Listeners ℓ) := ⟨{}⟩

def register (listeners : Listeners ℓ) (id : String) (listener : ℓ) :
    Listeners ℓ × Subscription :=
  let token := listeners.lastToken + 1
  ({ lastToken := token, byId := listeners.byId.insert id (token, listener) }, { id, token })

/-- The listener that a trigger for an id calls. -/
def listener? (listeners : Listeners ℓ) (id : String) : Option ℓ :=
  (listeners.byId.get? id).map Prod.snd

/-- Whether an id has a listener. -/
def isRegistered (listeners : Listeners ℓ) (id : String) : Bool :=
  listeners.byId.contains id

/-- Takes away the listener that a subscription stands for, if it is still the
one registered. -/
def unregister (listeners : Listeners ℓ) (subscription : Subscription) : Listeners ℓ :=
  match listeners.byId.get? subscription.id with
  | some (token, _) =>
      if token = subscription.token then
        { listeners with byId := listeners.byId.erase subscription.id }
      else listeners
  | none => listeners

/-- The listeners as log lines show them: the ids in ascending order. -/
def described (listeners : Listeners ℓ) : String :=
  "RefreshRegistry \x7b ids: " ++ Text.showList Text.quote listeners.byId.keys ++ " \x7d"

end Listeners

end LivePage
