import LivePage.Store.Registry

/-!
# Listeners and subscriptions

What unregistering does to the listeners of a page, and what the uses of a registry do to
the subscriptions that are kept under names.
-/

namespace LivePage

namespace Listeners

variable {ℓ : Type} {listeners : Listeners ℓ} {subscription : Subscription} {listener : ℓ}

theorem unregister_of_registered
    (hregistered : listeners.byId.get? subscription.id = some (subscription.token, listener)) :
    listeners.unregister subscription =
      { listeners with byId := listeners.byId.erase subscription.id } := by
  simp [unregister, hregistered]

theorem unregister_of_not_registered
    (hreplaced : ∀ listener,
      listeners.byId.get? subscription.id ≠ some (subscription.token, listener)) :
    listeners.unregister subscription = listeners := by
  cases hfound : listeners.byId.get? subscription.id with
  | none => simp [unregister, hfound]
  | some found =>
      have htoken : found.1 ≠ subscription.token := fun heq =>
        hreplaced found.2 (by rw [hfound, ← heq])
      simp [unregister, hfound, htoken]

theorem lastToken_unregister (listeners : Listeners ℓ) (subscription : Subscription) :
    (listeners.unregister subscription).lastToken = listeners.lastToken := by
  rw [unregister]
  split
  · split <;> rfl
  · rfl

/-- A subscription takes away the listener with its token, and no other. -/
theorem get?_unregister_iff {id : String} {token : Nat} :
    (listeners.unregister subscription).byId.get? id = some (token, listener) ↔
      listeners.byId.get? id = some (token, listener) ∧ subscription ≠ ⟨id, token⟩ := by
  by_cases hregistered : ∃ own,
      listeners.byId.get? subscription.id = some (subscription.token, own)
  · obtain ⟨own, hown⟩ := hregistered
    rw [unregister_of_registered hown, Dict.get?_erase]
    split
    · next hid =>
        subst hid
        rw [hown]
        constructor
        · simp
        · rintro ⟨hsame, hne⟩
          cases hsame
          exact absurd rfl hne
    · next hid => exact (and_iff_left fun heq => hid (by rw [heq])).symm
  · rw [unregister_of_not_registered (not_exists.1 hregistered)]
    constructor
    · intro hlistener
      refine ⟨hlistener, ?_⟩
      rintro rfl
      exact hregistered ⟨listener, hlistener⟩
    · exact And.left

end Listeners

namespace Registry

variable {registry : Registry} {name other : String}

theorem lookup_filter_ne (entries : List (String × Subscription)) :
    (entries.filter fun entry => entry.1 != name).lookup other =
      if name = other then none else entries.lookup other := by
  induction entries with
  | nil => simp
  | cons entry rest ih =>
      obtain ⟨key, subscription⟩ := entry
      by_cases hkey : key = name
      · rw [List.filter_cons_of_neg (by simp [hkey]), ih]
        split
        · rfl
        · next hne => rw [List.lookup_cons, hkey, beq_false_of_ne (Ne.symm hne)]
      · rw [List.filter_cons_of_pos (by simp [hkey]), List.lookup_cons, List.lookup_cons, ih]
        cases hother : other == key with
        | true =>
            have hne : name ≠ other := fun h => hkey (h.trans (beq_iff_eq.1 hother)).symm
            simp [hne]
        | false => rfl

theorem subscription?_forget :
    (registry.forget name).subscription? other =
      if name = other then none else registry.subscription? other :=
  lookup_filter_ne registry.subscriptions

theorem subscription?_unregister :
    (registry.unregister name).subscription? other =
      if name = other then none else registry.subscription? other :=
  subscription?_forget

theorem subscription?_register {listeners : Option (Listeners Callback)}
    {subscription : Subscription} :
    Registry.subscription? ⟨listeners, (name, subscription) :: registry.others name⟩ other =
      if name = other then some subscription else registry.subscription? other := by
  rw [subscription?, List.lookup_cons, others, lookup_filter_ne]
  by_cases heq : name = other
  · simp [heq]
  · simp [heq, beq_false_of_ne (Ne.symm heq), subscription?]

end Registry

end LivePage
