import LivePage.Store.Listeners

/-!
# Registries with callbacks

A registry whose listeners use it themselves: a callback may register, take away
and trigger listeners, its own included.  Which callback a trigger calls is
settled before it runs, so whatever it does to the registry counts for later
triggers only.  Subscriptions are kept under names, and they outlive the
registry.
-/

namespace LivePage

/-- A use of a registry, from outside or from within a callback.  The callbacks here make the
same uses whenever they are called. -/
inductive RegistryUse where
  /-- Registers a callback and keeps the subscription under a name, in place of
  the one there. -/
  | register (id name : String) (callback : List RegistryUse)
  /-- Takes away what the subscription with a name stands for. -/
  | unregister (name : String)
  /-- Gives the subscription with a name up; its listener stays. -/
  | forget (name : String)
  | trigger (id : String)
  | isRegistered (id : String)
  | describe
  /-- Lets the registry go. -/
  | drop
deriving Inhabited

/-- What a use answers. -/
inductive RegistryAnswer where
  | registered (id : String)
  /-- Whether there was a subscription with the name. -/
  | known (found : Bool)
  /-- Whether the id has a listener. -/
  | listens (found : Bool)
  | described (text : String)
  | done
  /-- The registry is gone. -/
  | gone
  /-- Callbacks called one another too deep. -/
  | endless
deriving DecidableEq, Repr, Inhabited

/-- What a use leads to on its way. -/
inductive RegistryEvent where
  /-- The callback with a name was called. -/
  | called (name : String)
  /-- A use within a callback was answered. -/
  | answered (answer : RegistryAnswer)
deriving DecidableEq, Repr, Inhabited

/-- A listener: its name, and the uses that it makes of the registry. -/
structure Callback where
  name : String
  uses : List RegistryUse
deriving Inhabited

/-- A registry with the subscriptions to it. -/
structure Registry where
  /-- The listeners; none once the registry is gone. -/
  listeners : Option (Listeners Callback) := some {}
  subscriptions : List (String × Subscription) := []
deriving Inhabited

namespace Registry

/-- The subscriptions without the one with a name. -/
def others (registry : Registry) (name : String) : List (String × Subscription) :=
  registry.subscriptions.filter fun entry => entry.1 != name

def subscription? (registry : Registry) (name : String) : Option Subscription :=
  registry.subscriptions.lookup name

/-- Gives the subscription with a name up. -/
def forget (registry : Registry) (name : String) : Registry :=
  { registry with subscriptions := registry.others name }

/-- Takes away what the subscription with a name stands for, if the registry is
still there. -/
def unregister (registry : Registry) (name : String) : Registry :=
  { registry.forget name with
    listeners := match registry.subscription? name with
      | some subscription => registry.listeners.map (·.unregister subscription)
      | none => registry.listeners }

/-- How deep callbacks may call one another. -/
def usualDepth : Nat := 1000

/-- Makes use of a registry; callbacks may call one another `depth` times. -/
def use : Nat → RegistryUse → Registry → RegistryAnswer × List RegistryEvent × Registry
  | _, .register id name callback, registry =>
      match registry.listeners with
      | none => (.gone, [], registry)
      | some listeners =>
          let (listeners, subscription) := listeners.register id ⟨name, callback⟩
          (.registered subscription.id, [],
            { listeners := some listeners
              subscriptions := (name, subscription) :: registry.others name })
  | _, .unregister name, registry =>
      (.known (registry.subscription? name).isSome, [], registry.unregister name)
  | _, .forget name, registry =>
      (.known (registry.subscription? name).isSome, [], registry.forget name)
  | depth, .trigger id, registry =>
      match registry.listeners with
      | none => (.gone, [], registry)
      | some listeners =>
          match listeners.listener? id, depth with
          | none, _ => (.listens false, [], registry)
          | some _, 0 => (.endless, [], registry)
          | some callback, depth + 1 =>
              let (events, registry) := callback.uses.foldl
                (fun (events, registry) inner =>
                  let (answer, more, registry) := use depth inner registry
                  (events ++ more ++ [.answered answer], registry))
                ([.called callback.name], registry)
              (.listens true, events, registry)
  | _, .isRegistered id, registry =>
      match registry.listeners with
      | none => (.gone, [], registry)
      | some listeners => (.listens (listeners.isRegistered id), [], registry)
  | _, .describe, registry =>
      match registry.listeners with
      | none => (.gone, [], registry)
      | some listeners => (.described listeners.described, [], registry)
  | _, .drop, registry => (.done, [], { registry with listeners := none })

end Registry

end LivePage
