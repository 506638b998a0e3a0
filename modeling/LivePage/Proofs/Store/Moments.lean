import LivePage.Store.Registry

/-!
# Moments of a registry

The uses that callbacks make take place between the uses from outside.  Listed in the
order in which they begin, all of them make up one history: a trigger changes nothing
itself, and the uses of the callback that it calls come right after it.  Every use finds
the registry that the history before it has left, however deep inside of callbacks it
is made.
-/

namespace LivePage.Registry

/-- The callback that a trigger for an id calls. -/
def callback? (registry : Registry) (id : String) : Option Callback :=
  registry.listeners.bind fun listeners => listeners.listener? id

/-- The callback that a use calls. -/
def called? (registry : Registry) : RegistryUse → Option Callback
  | .trigger id => registry.callback? id
  | _ => none

/-- What a use answers if it calls no callback. -/
def reply (registry : Registry) : RegistryUse → RegistryAnswer
  | .register id _ _ => registry.listeners.elim .gone fun _ => .registered id
  | .unregister name | .forget name => .known (registry.subscription? name).isSome
  | .trigger _ => registry.listeners.elim .gone fun _ => .listens false
  | .isRegistered id =>
      registry.listeners.elim .gone fun listeners => .listens (listeners.isRegistered id)
  | .describe => registry.listeners.elim .gone fun listeners => .described listeners.described
  | .drop => .done

/-- What a use changes itself, without the callback that it may call. -/
def touch (registry : Registry) : RegistryUse → Registry
  | .register id name uses =>
      match registry.listeners with
      | none => registry
      | some listeners =>
          { listeners := some (listeners.register id ⟨name, uses⟩).1
            subscriptions :=
              (name, (listeners.register id ⟨name, uses⟩).2) :: registry.others name }
  | .unregister name => registry.unregister name
  | .forget name => registry.forget name
  | .trigger _ | .isRegistered _ | .describe => registry
  | .drop => { registry with listeners := none }

/-- The registry after a history of uses. -/
def after (history : List RegistryUse) : Registry :=
  history.foldl touch {}

/-- Makes uses one after the other, as a callback does. -/
def useAll (depth : Nat) : List RegistryUse → Registry → List RegistryEvent × Registry
  | [], registry => ([], registry)
  | made :: rest, registry =>
      let (answer, events, registry) := use depth made registry
      let (more, registry) := useAll depth rest registry
      (events ++ .answered answer :: more, registry)

/-- A use that is about to be made. -/
structure Moment where
  /-- How deep callbacks may still call one another. -/
  room : Nat
  use : RegistryUse
  /-- The registry that the use is made on. -/
  registry : Registry

/-- The callback called at a moment; none where callbacks may not go deeper. -/
def Moment.called? (moment : Moment) : Option Callback :=
  if moment.room = 0 then none else moment.registry.called? moment.use

/-- The moments of uses made one after the other, from those of a single use. -/
def momentsEach (depth : Nat) (single : RegistryUse → Registry → List Moment) :
    List RegistryUse → Registry → List Moment
  | [], _ => []
  | made :: rest, registry =>
      single made registry ++ momentsEach depth single rest (use depth made registry).2.2

/-- The moments of a use: its own, and then those of the callback that it calls. -/
def momentsOf : Nat → RegistryUse → Registry → List Moment
  | 0, made, registry => [⟨0, made, registry⟩]
  | depth + 1, made, registry =>
      ⟨depth + 1, made, registry⟩ ::
        match registry.called? made with
        | none => []
        | some callback => momentsEach depth (momentsOf depth) callback.uses registry

/-- The moments of uses made one after the other. -/
def moments (depth : Nat) : List RegistryUse → Registry → List Moment :=
  momentsEach depth (momentsOf depth)

/-- The names of the callbacks that events tell to be called. -/
def calls (events : List RegistryEvent) : List String :=
  events.filterMap fun
    | .called name => some name
    | .answered _ => none

section Uses

variable {depth : Nat} {made : RegistryUse} {registry : Registry} {callback : Callback}

theorem eq_trigger_of_called? (hcalled : registry.called? made = some callback) :
    ∃ id, made = .trigger id ∧ registry.callback? id = some callback := by
  cases made with
  | trigger id => exact ⟨id, rfl, hcalled⟩
  | register | unregister | forget | isRegistered | describe | drop => simp [called?] at hcalled

theorem called?_of_gone (hgone : registry.listeners = none) (made : RegistryUse) :
    registry.called? made = none := by
  cases made with
  | trigger id => rw [called?, callback?, hgone, Option.bind_none]
  | register | unregister | forget | isRegistered | describe | drop => rfl

theorem foldl_use_eq_useAll (uses : List RegistryUse) (events : List RegistryEvent)
    (registry : Registry) :
    uses.foldl
        (fun (events, registry) inner =>
          let (answer, more, registry) := use depth inner registry
          (events ++ more ++ [.answered answer], registry))
        (events, registry) =
      (events ++ (useAll depth uses registry).1, (useAll depth uses registry).2) := by
  induction uses generalizing events registry with
  | nil => simp [useAll]
  | cons made rest ih =>
      rw [List.foldl_cons, ih]
      simp [useAll]

/-- A use that calls no callback answers and makes its change; a callback makes its uses, all
of them, on the registry as it stands. -/
theorem use_eq (depth : Nat) (made : RegistryUse) (registry : Registry) :
    use depth made registry =
      match registry.called? made, depth with
      | none, _ => (registry.reply made, [], registry.touch made)
      | some _, 0 => (.endless, [], registry)
      | some callback, depth + 1 =>
          (.listens true, .called callback.name :: (useAll depth callback.uses registry).1,
            (useAll depth callback.uses registry).2) := by
  cases made with
  | trigger id =>
      cases hlisteners : registry.listeners with
      | none => simp [use, called?, callback?, reply, touch, hlisteners]
      | some listeners =>
          cases hlistener : listeners.listener? id with
          | none => simp [use, called?, callback?, reply, touch, hlisteners, hlistener]
          | some callback =>
              cases depth with
              | zero => simp [use, called?, callback?, hlisteners, hlistener]
              | succ depth =>
                  simp only [use, called?, callback?, hlisteners, hlistener, Option.bind_some,
                    foldl_use_eq_useAll]
                  rfl
  | register id name uses =>
      cases hlisteners : registry.listeners <;>
        simp [use, called?, reply, touch, hlisteners, Listeners.register]
  | isRegistered | describe =>
      cases hlisteners : registry.listeners <;> simp [use, called?, reply, touch, hlisteners]
  | unregister | forget | drop => simp [use, called?, reply, touch]

theorem use_of_called?_eq_none (hcalled : registry.called? made = none) :
    use depth made registry = (registry.reply made, [], registry.touch made) := by
  rw [use_eq, hcalled]

/-- A trigger calls the callback, once. -/
theorem use_trigger {id : String} (hcallback : registry.callback? id = some callback) :
    use (depth + 1) (.trigger id) registry =
      (.listens true, .called callback.name :: (useAll depth callback.uses registry).1,
        (useAll depth callback.uses registry).2) := by
  rw [use_eq, called?, hcallback]

/-- Where callbacks may not go deeper, none is called. -/
theorem use_zero (made : RegistryUse) (registry : Registry) :
    (use 0 made registry).2 = ([], registry.touch made) := by
  rw [use_eq]
  cases hcalled : registry.called? made with
  | none => rfl
  | some callback =>
      obtain ⟨id, rfl, -⟩ := eq_trigger_of_called? hcalled
      rfl

/-- A registry that is gone stays so. -/
theorem listeners_touch_of_none (hgone : registry.listeners = none) :
    (registry.touch made).listeners = none := by
  cases made with
  | register => simp [touch, hgone]
  | unregister name =>
      cases hsubscription : registry.subscription? name <;>
        simp [touch, Registry.unregister, hsubscription, hgone]
  | forget | trigger | isRegistered | describe => exact hgone
  | drop => rfl

theorem after_concat (history : List RegistryUse) (made : RegistryUse) :
    after (history ++ [made]) = (after history).touch made := by
  simp [after]

end Uses

/-- Each moment finds the registry that the moments before it have left. -/
inductive Chain : Registry → List Moment → Registry → Prop
  | nil (registry : Registry) : Chain registry [] registry
  | cons (room : Nat) {made : RegistryUse} {registry last : Registry} {later : List Moment}
      (htail : Chain (registry.touch made) later last) :
      Chain registry (⟨room, made, registry⟩ :: later) last

namespace Chain

variable {first middle last : Registry} {before behind : List Moment}

theorem append (hbefore : Chain first before middle) (hbehind : Chain middle behind last) :
    Chain first (before ++ behind) last := by
  induction hbefore with
  | nil => exact hbehind
  | cons room _ ih => exact .cons room (ih hbehind)

theorem last_eq (hchain : Chain first before last) :
    last = (before.map Moment.use).foldl touch first := by
  induction hchain with
  | nil => rfl
  | cons room _ ih => exact ih

theorem registry_eq {moment : Moment} (hchain : Chain first (before ++ moment :: behind) last) :
    moment.registry = (before.map Moment.use).foldl touch first := by
  induction before generalizing first with
  | nil =>
      cases hchain
      rfl
  | cons earlier before ih =>
      cases hchain with
      | cons room htail => exact ih htail

end Chain

theorem chain_momentsEach {depth : Nat} {single : RegistryUse → Registry → List Moment}
    (hsingle : ∀ made registry,
      Chain registry (single made registry) (use depth made registry).2.2)
    (uses : List RegistryUse) (registry : Registry) :
    Chain registry (momentsEach depth single uses registry) (useAll depth uses registry).2 := by
  induction uses generalizing registry with
  | nil => exact .nil registry
  | cons made rest ih => exact (hsingle made registry).append (ih _)

theorem chain_momentsOf (depth : Nat) (made : RegistryUse) (registry : Registry) :
    Chain registry (momentsOf depth made registry) (use depth made registry).2.2 := by
  induction depth generalizing made registry with
  | zero =>
      rw [use_zero]
      exact .cons 0 (.nil _)
  | succ depth ih =>
      rw [momentsOf]
      apply Chain.cons
      cases hcalled : registry.called? made with
      | none =>
          rw [use_of_called?_eq_none hcalled]
          exact .nil _
      | some callback =>
          obtain ⟨id, rfl, hcallback⟩ := eq_trigger_of_called? hcalled
          rw [use_trigger hcallback]
          exact chain_momentsEach ih callback.uses registry

theorem chain_moments (depth : Nat) (uses : List RegistryUse) (registry : Registry) :
    Chain registry (moments depth uses registry) (useAll depth uses registry).2 :=
  chain_momentsEach (chain_momentsOf depth) uses registry

/-- At every moment the registry is what the history before it has left. -/
theorem registry_eq_after {depth : Nat} {uses : List RegistryUse}
    {before behind : List Moment} {moment : Moment}
    (hmoments : moments depth uses {} = before ++ moment :: behind) :
    moment.registry = after (before.map Moment.use) := by
  have hchain := chain_moments depth uses {}
  rw [hmoments] at hchain
  exact hchain.registry_eq

/-- So it is after all of them. -/
theorem useAll_eq_after (depth : Nat) (uses : List RegistryUse) :
    (useAll depth uses {}).2 = after ((moments depth uses {}).map Moment.use) :=
  (chain_moments depth uses {}).last_eq

theorem calls_append (events more : List RegistryEvent) :
    calls (events ++ more) = calls events ++ calls more :=
  List.filterMap_append

theorem calls_useAll_of_single {depth : Nat} {single : RegistryUse → Registry → List Moment}
    (hsingle : ∀ made registry, calls (use depth made registry).2.1 =
      (single made registry).filterMap fun moment => moment.called?.map Callback.name)
    (uses : List RegistryUse) (registry : Registry) :
    calls (useAll depth uses registry).1 =
      (momentsEach depth single uses registry).filterMap fun moment =>
        moment.called?.map Callback.name := by
  induction uses generalizing registry with
  | nil => rfl
  | cons made rest ih =>
      rw [momentsEach, List.filterMap_append, ← hsingle, ← ih]
      exact calls_append _ _

theorem calls_use (depth : Nat) (made : RegistryUse) (registry : Registry) :
    calls (use depth made registry).2.1 =
      (momentsOf depth made registry).filterMap fun moment => moment.called?.map Callback.name := by
  induction depth generalizing made registry with
  | zero =>
      rw [use_zero]
      rfl
  | succ depth ih =>
      cases hcalled : registry.called? made with
      | none =>
          rw [use_of_called?_eq_none hcalled]
          simp [momentsOf, Moment.called?, hcalled, calls]
      | some callback =>
          obtain ⟨id, rfl, hcallback⟩ := eq_trigger_of_called? hcalled
          rw [use_trigger hcallback]
          have hinner := calls_useAll_of_single ih callback.uses registry
          simp only [momentsOf, hcalled]
          rw [List.filterMap_cons_some (b := callback.name) (by simp [Moment.called?, hcalled]),
            ← hinner]
          rfl

/-- Every callback that is called is called by one trigger, in the order of the triggers. -/
theorem calls_useAll (depth : Nat) (uses : List RegistryUse) (registry : Registry) :
    calls (useAll depth uses registry).1 =
      (moments depth uses registry).filterMap fun moment => moment.called?.map Callback.name :=
  calls_useAll_of_single (calls_use depth) uses registry

end LivePage.Registry
