import LivePage.Proofs.Store.Listeners
import LivePage.Proofs.Store.Moments
import LivePage.Proofs.Store.Registrations

/-!
# Registries follow their history

What a registry does can be told from the uses made of it before, those of callbacks
among them.  Tokens count the registrations, so the subscription with a name and the
listener of an id have the same token only if they come from the same registration.  That
is why a subscription takes away the listener that it stands for, and no other.
-/

namespace LivePage.Registry

/-- What a registry keeps of its history while it is there.  Tokens count the registrations;
a name leads to the last registration with it, as long as no use has handled it since; and a
listener is that of the last registration for its id, unless it has been taken back. -/
structure Records (history : List RegistryUse) (registry : Registry)
    (listeners : Listeners Callback) : Prop where
  listeners_eq : registry.listeners = some listeners
  lastToken_eq : listeners.lastToken = registrations history
  subscription_iff : ∀ name id token, registry.subscription? name = some ⟨id, token⟩ ↔
    ∃ callback : Callback, callback.name = name ∧
      ∃ later, Registered history token id callback later ∧ Untouched name later
  listener_iff : ∀ id token callback, listeners.byId.get? id = some (token, callback) ↔
    ∃ later, Registered history token id callback later ∧ Stands id callback.name later

namespace Records

variable {history : List RegistryUse} {registry : Registry} {listeners : Listeners Callback}
  {made : RegistryUse}

theorem empty : Records [] {} {} where
  listeners_eq := rfl
  lastToken_eq := rfl
  subscription_iff := by simp [subscription?, Registered]
  listener_iff := by simp [Registered]

/-- The subscription with a name is that of the registration with its token. -/
theorem subscription?_eq_iff (hrecords : Records history registry listeners) {name id : String}
    {token : Nat} {callback : Callback} {later : List RegistryUse}
    (hregistered : Registered history token id callback later) :
    registry.subscription? name = some ⟨id, token⟩ ↔
      callback.name = name ∧ Untouched name later := by
  rw [hrecords.subscription_iff]
  constructor
  · rintro ⟨callback', hname, later', hregistered', huntouched⟩
    obtain ⟨-, rfl, rfl⟩ := hregistered.unique hregistered'
    exact ⟨hname, huntouched⟩
  · rintro ⟨hname, huntouched⟩
    exact ⟨callback, hname, later, hregistered, huntouched⟩

/-- A use that does not register ends the subscriptions with the names that it handles.  If
it unregisters through one of them, it takes away the listener with the same token. -/
theorem of_not_register (hrecords : Records history registry listeners)
    (hmade : made.isRegister = false) {registry' : Registry} {listeners' : Listeners Callback}
    (hlisteners : registry'.listeners = some listeners')
    (htoken : listeners'.lastToken = listeners.lastToken)
    (hsubscription : ∀ name, registry'.subscription? name =
      if made.handles name then none else registry.subscription? name)
    (hlistener : ∀ id token callback, listeners'.byId.get? id = some (token, callback) ↔
      listeners.byId.get? id = some (token, callback) ∧
        ¬∃ name, made.unregisters name = true ∧
          registry.subscription? name = some ⟨id, token⟩) :
    Records (history ++ [made]) registry' listeners' where
  listeners_eq := hlisteners
  lastToken_eq := by
    rw [htoken, hrecords.lastToken_eq, registrations_concat, hmade]
    rfl
  subscription_iff name id token := by
    simp only [hsubscription, exists_registered_concat_iff_of_not_register hmade,
      untouched_concat_iff]
    cases made.handles name with
    | true => simp
    | false =>
        simp only [Bool.false_eq_true, if_false, and_true]
        exact hrecords.subscription_iff name id token
  listener_iff id token callback := by
    rw [hlistener, hrecords.listener_iff, exists_registered_concat_iff_of_not_register hmade]
    constructor
    · rintro ⟨⟨since, hsince, hstands⟩, hkept⟩
      refine ⟨since, hsince, stands_concat_iff.2
        ⟨hstands, RegistryUse.registers_of_isRegister hmade id, fun hback => hkept ?_⟩⟩
      exact ⟨callback.name, hback.1, (hrecords.subscription?_eq_iff hsince).2 ⟨rfl, hback.2⟩⟩
    · rintro ⟨since, hsince, hstands⟩
      obtain ⟨hbefore, -, hkept⟩ := stands_concat_iff.1 hstands
      refine ⟨⟨since, hsince, hbefore⟩, ?_⟩
      rintro ⟨name, hunregisters, hsubscription⟩
      obtain ⟨rfl, huntouched⟩ := (hrecords.subscription?_eq_iff hsince).1 hsubscription
      exact hkept ⟨hunregisters, huntouched⟩

/-- A use that neither registers nor handles a name leaves everything as it is. -/
theorem quiet (hrecords : Records history registry listeners) (hmade : made.isRegister = false)
    (hhandles : ∀ name, made.handles name = false) :
    Records (history ++ [made]) registry listeners := by
  have hunregisters : ∀ name, made.unregisters name = false := fun name =>
    RegistryUse.unregisters_of_handles (hhandles name)
  apply hrecords.of_not_register hmade hrecords.listeners_eq rfl
  · simp [hhandles]
  · simp [hunregisters]

theorem forget (hrecords : Records history registry listeners) (name : String) :
    Records (history ++ [.forget name]) (registry.forget name) listeners := by
  have hlisteners : (registry.forget name).listeners = some listeners := hrecords.listeners_eq
  apply hrecords.of_not_register rfl hlisteners rfl
  · intro other
    simp [subscription?_forget, RegistryUse.handles]
  · simp [RegistryUse.unregisters]

theorem unregister (hrecords : Records history registry listeners) (name : String) :
    ∃ listeners',
      Records (history ++ [.unregister name]) (registry.unregister name) listeners' := by
  have hnames : ∀ other, (registry.unregister name).subscription? other =
      if (RegistryUse.unregister name).handles other then none
      else registry.subscription? other := by
    intro other
    simp [subscription?_unregister, RegistryUse.handles]
  cases hsubscription : registry.subscription? name with
  | none =>
      have hlisteners : (registry.unregister name).listeners = some listeners := by
        simp [Registry.unregister, hsubscription, hrecords.listeners_eq]
      refine ⟨listeners, hrecords.of_not_register rfl hlisteners rfl hnames ?_⟩
      simp [RegistryUse.unregisters, hsubscription]
  | some subscription =>
      have hlisteners :
          (registry.unregister name).listeners = some (listeners.unregister subscription) := by
        simp [Registry.unregister, hsubscription, hrecords.listeners_eq]
      refine ⟨_, hrecords.of_not_register rfl hlisteners
        (Listeners.lastToken_unregister _ _) hnames ?_⟩
      intro id token callback
      rw [Listeners.get?_unregister_iff]
      simp [RegistryUse.unregisters, hsubscription]

theorem register (hrecords : Records history registry listeners) (id name : String)
    (uses : List RegistryUse) :
    Records (history ++ [.register id name uses])
      ⟨some (listeners.register id ⟨name, uses⟩).1,
        (name, (listeners.register id ⟨name, uses⟩).2) :: registry.others name⟩
      (listeners.register id ⟨name, uses⟩).1 where
  listeners_eq := rfl
  lastToken_eq := by
    rw [registrations_concat, ← hrecords.lastToken_eq]
    rfl
  subscription_iff other id' token := by
    rw [subscription?_register]
    simp only [exists_registered_concat_iff, untouched_concat_iff, RegistryUse.handles]
    split
    · next heq =>
        subst heq
        simp only [Listeners.register, hrecords.lastToken_eq, beq_self_eq_true, Bool.true_eq_false,
          and_false, exists_false, false_or, Option.some.injEq, Subscription.mk.injEq,
          RegistryUse.register.injEq]
        constructor
        · rintro ⟨hid, htoken⟩
          exact ⟨⟨name, uses⟩, rfl, ⟨hid, rfl, rfl⟩, htoken.symm, by simp [Untouched]⟩
        · rintro ⟨callback, -, ⟨hid, -, -⟩, htoken, -⟩
          exact ⟨hid, htoken.symm⟩
    · next hne =>
        simp only [beq_false_of_ne hne, and_true]
        rw [hrecords.subscription_iff]
        constructor
        · rintro ⟨callback, hname, hregistered⟩
          exact ⟨callback, hname, .inl hregistered⟩
        · rintro ⟨callback, hname, hregistered | ⟨hmade, -⟩⟩
          · exact ⟨callback, hname, hregistered⟩
          · obtain ⟨-, hsame, -⟩ := RegistryUse.register.inj hmade
            exact absurd (hsame.trans hname) hne
  listener_iff id' token callback := by
    simp only [exists_registered_concat_iff, stands_concat_iff, RegistryUse.registers,
      RegistryUse.unregisters, Bool.false_eq_true, false_and, not_false_eq_true, and_true,
      Listeners.register, Dict.get?_insert, hrecords.lastToken_eq]
    split
    · next heq =>
        subst heq
        simp only [beq_self_eq_true, Bool.true_eq_false, and_false, exists_false, false_or]
        constructor
        · intro hnew
          cases hnew
          exact ⟨rfl, rfl, stands_nil⟩
        · rintro ⟨hmade, rfl, -⟩
          obtain ⟨-, hname, huses⟩ := RegistryUse.register.inj hmade
          rw [hname, huses]
    · next hne =>
        simp only [beq_false_of_ne hne, and_true]
        rw [hrecords.listener_iff, or_iff_left]
        rintro ⟨hmade, -⟩
        exact hne (RegistryUse.register.inj hmade).1

/-- What a registry keeps is kept up by every use but its end. -/
theorem step (hrecords : Records history registry listeners) (hmade : made ≠ .drop) :
    ∃ listeners', Records (history ++ [made]) (registry.touch made) listeners' := by
  cases made with
  | register id name uses =>
      have htouch : registry.touch (.register id name uses) =
          ⟨some (listeners.register id ⟨name, uses⟩).1,
            (name, (listeners.register id ⟨name, uses⟩).2) :: registry.others name⟩ := by
        simp [touch, hrecords.listeners_eq]
      rw [htouch]
      exact ⟨_, hrecords.register id name uses⟩
  | unregister name => exact hrecords.unregister name
  | forget name => exact ⟨listeners, hrecords.forget name⟩
  | trigger | isRegistered | describe => exact ⟨listeners, hrecords.quiet rfl fun _ => rfl⟩
  | drop => exact absurd rfl hmade

end Records

theorem listeners_after_of_drop {history : List RegistryUse} (hdrop : .drop ∈ history) :
    (after history).listeners = none := by
  induction history using List.reverseRecOn with
  | nil => simp at hdrop
  | append_singleton history made ih =>
      rw [after_concat]
      rcases List.mem_append.1 hdrop with hbefore | hlast
      · exact listeners_touch_of_none (ih hbefore)
      · rw [← List.mem_singleton.1 hlast]
        rfl

theorem records_after {history : List RegistryUse} (hdrop : .drop ∉ history) :
    ∃ listeners, Records history (after history) listeners := by
  induction history using List.reverseRecOn with
  | nil => exact ⟨{}, .empty⟩
  | append_singleton history made ih =>
      obtain ⟨listeners, hrecords⟩ := ih fun h => hdrop (List.mem_append_left _ h)
      rw [after_concat]
      exact hrecords.step fun h => hdrop (by simp [h])

theorem Records.callback?_eq {history : List RegistryUse} {registry : Registry}
    {listeners : Listeners Callback} (hrecords : Records history registry listeners) (id : String) :
    registry.callback? id = standing? id history := by
  ext callback
  rw [standing?_eq_some_iff, callback?, hrecords.listeners_eq]
  simp only [Option.bind_some, Listeners.listener?, Option.map_eq_some_iff, Prod.exists,
    exists_eq_right, hrecords.listener_iff]

/-- A registry does what a history of uses calls for. -/
structure Follows (registry : Registry) (history : List RegistryUse) : Prop where
  /-- An id is registered exactly when a callback stands for it. -/
  isRegistered : .drop ∉ history → ∀ depth id, use depth (.isRegistered id) registry =
    (.listens (standing? id history).isSome, [], registry)
  /-- A trigger calls the callback that stands for the id, once, and changes nothing else.
  The callback makes its uses, all of them, whatever the first of them do to the registry. -/
  trigger_some : .drop ∉ history → ∀ depth id callback, standing? id history = some callback →
    use (depth + 1) (.trigger id) registry =
      (.listens true, .called callback.name :: (useAll depth callback.uses registry).1,
        (useAll depth callback.uses registry).2)
  /-- A trigger for an id without a callback calls nothing. -/
  trigger_none : .drop ∉ history → ∀ depth id, standing? id history = none →
    use depth (.trigger id) registry = (.listens false, [], registry)
  /-- The subscription of a registration that another one has replaced takes nothing away. -/
  replaced : ∀ past id name uses later, history = past ++ .register id name uses :: later →
    Untouched name later → (∃ made ∈ later, made.registers id = true) →
      ∀ depth, (use depth (.unregister name) registry).2.2.listeners = registry.listeners
  /-- Unregistering brings no callback back. -/
  unregister : ∀ depth name id callback,
    (use depth (.unregister name) registry).2.2.callback? id = some callback →
      registry.callback? id = some callback
  /-- A registry that is gone calls nothing, and no use brings it back. -/
  gone : .drop ∈ history → ∀ depth made,
    (use depth made registry).2.1 = [] ∧ (use depth made registry).2.2.listeners = none

theorem isRegistered_eq {registry : Registry} {listeners : Listeners Callback}
    (hlisteners : registry.listeners = some listeners) (id : String) :
    listeners.isRegistered id = (registry.callback? id).isSome := by
  rw [callback?, hlisteners, Option.bind_some, Listeners.listener?, Option.isSome_map]
  rfl

theorem callback?_of_unregister {registry : Registry} {name id : String} {callback : Callback}
    (hafter : (registry.unregister name).callback? id = some callback) :
    registry.callback? id = some callback := by
  cases hsubscription : registry.subscription? name with
  | none =>
      have hlisteners : (registry.unregister name).listeners = registry.listeners := by
        simp [Registry.unregister, hsubscription]
      rwa [callback?, hlisteners] at hafter
  | some subscription =>
      have hlisteners : (registry.unregister name).listeners =
          registry.listeners.map (·.unregister subscription) := by
        simp [Registry.unregister, hsubscription]
      rw [callback?, hlisteners, Option.bind_map] at hafter
      obtain ⟨listeners, hregistry, hlistener⟩ := Option.bind_eq_some_iff.1 hafter
      obtain ⟨⟨token, listener⟩, hfound, rfl⟩ := Option.map_eq_some_iff.1 hlistener
      rw [callback?, hregistry, Option.bind_some, Listeners.listener?,
        (Listeners.get?_unregister_iff.1 hfound).1, Option.map_some]

theorem Records.listeners_unregister_of_replaced {history : List RegistryUse} {registry : Registry}
    {listeners : Listeners Callback} (hrecords : Records history registry listeners)
    {token : Nat} {id : String} {callback : Callback} {later : List RegistryUse}
    (hregistered : Registered history token id callback later)
    (huntouched : Untouched callback.name later)
    (hreplaced : ∃ made ∈ later, made.registers id = true) :
    (registry.unregister callback.name).listeners = registry.listeners := by
  have hsubscription := (hrecords.subscription?_eq_iff hregistered).2 ⟨rfl, huntouched⟩
  simp only [Registry.unregister, hsubscription, hrecords.listeners_eq, Option.map_some]
  rw [Listeners.unregister_of_not_registered]
  intro listener hlistener
  obtain ⟨last, hlast, hstands⟩ := (hrecords.listener_iff id token listener).1 hlistener
  obtain ⟨-, -, rfl⟩ := hregistered.unique hlast
  obtain ⟨made, hmade, hregisters⟩ := hreplaced
  simp [hstands.1 made hmade] at hregisters

theorem follows_after (history : List RegistryUse) : (after history).Follows history where
  isRegistered hdrop depth id := by
    obtain ⟨listeners, hrecords⟩ := records_after hdrop
    rw [use_of_called?_eq_none rfl, reply, hrecords.listeners_eq, Option.elim_some,
      isRegistered_eq hrecords.listeners_eq, hrecords.callback?_eq, touch]
  trigger_some hdrop depth id callback hstanding := by
    obtain ⟨listeners, hrecords⟩ := records_after hdrop
    exact use_trigger ((hrecords.callback?_eq id).trans hstanding)
  trigger_none hdrop depth id hstanding := by
    obtain ⟨listeners, hrecords⟩ := records_after hdrop
    have hcalled : (after history).called? (.trigger id) = none :=
      (hrecords.callback?_eq id).trans hstanding
    rw [use_of_called?_eq_none hcalled, reply, hrecords.listeners_eq, Option.elim_some, touch]
  replaced past id name uses later hhistory huntouched hreplaced depth := by
    rw [use_of_called?_eq_none rfl]
    by_cases hdrop : .drop ∈ history
    · have hgone := listeners_after_of_drop hdrop
      have hstill : ((after history).touch (.unregister name)).listeners = none :=
        listeners_touch_of_none hgone
      exact hstill.trans hgone.symm
    · obtain ⟨listeners, hrecords⟩ := records_after hdrop
      have hregistered : Registered history (registrations past + 1) id ⟨name, uses⟩ later :=
        ⟨past, hhistory, rfl⟩
      exact hrecords.listeners_unregister_of_replaced hregistered huntouched hreplaced
  unregister depth name id callback hafter := by
    rw [use_of_called?_eq_none rfl] at hafter
    exact callback?_of_unregister hafter
  gone hdrop depth made := by
    have hgone := listeners_after_of_drop hdrop
    rw [use_of_called?_eq_none (called?_of_gone hgone made)]
    exact ⟨rfl, listeners_touch_of_none hgone⟩

/-- A registry follows its history.  The history consists of all uses that have begun, from
outside and within callbacks; at every moment, and after all of them, the registry does what
it calls for.  The callbacks called are those of the triggers, each once and in their order.
For the registry only the order of the uses counts: it follows any history, and so also one
in which callbacks that have a state of their own make other uses every time. -/
theorem follows_history (depth : Nat) (uses : List RegistryUse) :
    (∀ before moment behind, moments depth uses {} = before ++ moment :: behind →
      moment.registry.Follows (before.map Moment.use)) ∧
    (useAll depth uses {}).2.Follows ((moments depth uses {}).map Moment.use) ∧
    calls (useAll depth uses {}).1 =
      (moments depth uses {}).filterMap (fun moment => moment.called?.map Callback.name) ∧
    ∀ history, (after history).Follows history := by
  refine ⟨?_, ?_, calls_useAll depth uses {}, follows_after⟩
  · intro before moment behind hmoments
    rw [registry_eq_after hmoments]
    exact follows_after _
  · rw [useAll_eq_after]
    exact follows_after _

/-- A callback that takes itself back and puts another one in its place: the subscription that
it has used up is no good afterwards, and the next trigger calls the other one. -/
theorem follows_history_of_reentry :
    let inner : List RegistryUse := [.unregister "first", .register "t" "second" []]
    let uses : List RegistryUse :=
      [.register "t" "first" inner, .trigger "t", .unregister "first", .trigger "t"]
    ∃ before moment behind, moments 2 uses {} = before ++ moment :: behind ∧
      before.map Moment.use =
        [.register "t" "first" inner, .trigger "t", .unregister "first", .register "t" "second" [],
          .unregister "first"] ∧
      use 2 (.trigger "t") moment.registry =
        (.listens true, [.called "second"], moment.registry) := by
  intro inner uses
  have hmoments : moments 2 uses {} = (moments 2 uses {}).take 5 ++ (moments 2 uses {})[5] ::
    (moments 2 uses {}).drop 6 := rfl
  have hfollows := (follows_history 2 uses).1 _ _ _ hmoments
  refine ⟨_, _, _, hmoments, rfl, hfollows.trigger_some ?_ 1 "t" ⟨"second", []⟩ rfl⟩
  have hhistory : ((moments 2 uses {}).take 5).map Moment.use =
    [.register "t" "first" inner, .trigger "t", .unregister "first", .register "t" "second" [],
      .unregister "first"] := rfl
  simp [hhistory]

end LivePage.Registry
