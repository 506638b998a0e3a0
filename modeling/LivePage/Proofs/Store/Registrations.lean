import Mathlib.Data.List.Induction
import LivePage.Store.Registry

/-!
# Registrations of a history

Which callback stands for an id can be told from the uses that have been made of a
registry: it is that of the most recent registration for the id, unless it has been taken
back through its own subscription.  A registration has a token, the number of the
registrations up to it, and this token belongs to no other one.
-/

namespace LivePage

namespace RegistryUse

/-- Whether a use registers a callback, for whatever id. -/
def isRegister : RegistryUse → Bool
  | register .. => true
  | _ => false

/-- Whether a use registers a callback for an id. -/
def registers (id : String) : RegistryUse → Bool
  | register other _ _ => other == id
  | _ => false

/-- Whether a use puts an end to the subscription with a name: it replaces it, unregisters
through it or gives it up. -/
def handles (name : String) : RegistryUse → Bool
  | register _ other _ | unregister other | forget other => other == name
  | _ => false

/-- Whether a use unregisters through the subscription with a name. -/
def unregisters (name : String) : RegistryUse → Bool
  | unregister other => other == name
  | _ => false

theorem registers_of_isRegister {made : RegistryUse} (hmade : made.isRegister = false)
    (id : String) : made.registers id = false := by
  cases made with
  | register => simp [isRegister] at hmade
  | unregister | forget | trigger | isRegistered | describe | drop => rfl

theorem handles_of_unregisters {made : RegistryUse} {name : String}
    (hunregisters : made.unregisters name = true) : made.handles name = true := by
  cases made with
  | unregister other => exact hunregisters
  | register | forget | trigger | isRegistered | describe | drop =>
      simp [unregisters] at hunregisters

theorem unregisters_of_handles {made : RegistryUse} {name : String}
    (hhandles : made.handles name = false) : made.unregisters name = false :=
  Bool.eq_false_iff.2 fun hunregisters => by
    simp [handles_of_unregisters hunregisters] at hhandles

end RegistryUse

namespace Registry

/-- The subscription with a name is still there after some uses. -/
def Untouched (name : String) (later : List RegistryUse) : Prop :=
  ∀ made ∈ later, made.handles name = false

/-- Whether a registration has been taken back through its own subscription: the first of
the later uses to handle its name unregisters. -/
def takenBack (name : String) (later : List RegistryUse) : Bool :=
  (later.find? (·.handles name)).any (·.unregisters name)

/-- The most recent registration for an id: the callback, and the uses made since. -/
def lastRegistration? (id : String) : List RegistryUse → Option (Callback × List RegistryUse)
  | [] => none
  | .register other name uses :: later =>
      (lastRegistration? id later).or (if other = id then some (⟨name, uses⟩, later) else none)
  | _ :: later => lastRegistration? id later

/-- The callback that stands for an id after a history: that of the most recent
registration, unless it has been taken back. -/
def standing? (id : String) (history : List RegistryUse) : Option Callback :=
  (lastRegistration? id history).bind fun (callback, later) =>
    if takenBack callback.name later then none else some callback

/-- A registration for an id with a name is the most recent one and has not been taken back. -/
def Stands (id name : String) (later : List RegistryUse) : Prop :=
  (∀ made ∈ later, made.registers id = false) ∧ takenBack name later = false

/-- How many registrations a history has. -/
def registrations (history : List RegistryUse) : Nat :=
  history.countP (·.isRegister)

/-- The history has a registration with a token, and some uses since. -/
def Registered (history : List RegistryUse) (token : Nat) (id : String) (callback : Callback)
    (later : List RegistryUse) : Prop :=
  ∃ past, history = past ++ .register id callback.name callback.uses :: later ∧
    token = registrations past + 1

variable {history later later' : List RegistryUse} {made : RegistryUse} {name id id' : String}
  {token : Nat} {callback callback' : Callback}

theorem untouched_concat_iff :
    Untouched name (later ++ [made]) ↔ Untouched name later ∧ made.handles name = false := by
  simp [Untouched, or_imp, forall_and]

theorem untouched_iff_find? : Untouched name later ↔ later.find? (·.handles name) = none := by
  simp [Untouched]

theorem takenBack_of_untouched (huntouched : Untouched name later) :
    takenBack name later = false := by
  rw [takenBack, untouched_iff_find?.1 huntouched, Option.any_none]

theorem takenBack_concat_of_untouched (huntouched : Untouched name later) :
    takenBack name (later ++ [made]) = made.unregisters name := by
  rw [takenBack, List.find?_append, untouched_iff_find?.1 huntouched, Option.none_or]
  cases hhandles : made.handles name with
  | true => simp [hhandles]
  | false => simp [hhandles, RegistryUse.unregisters_of_handles hhandles]

theorem takenBack_concat_of_touched (htouched : ¬Untouched name later) :
    takenBack name (later ++ [made]) = takenBack name later := by
  cases hfind : later.find? (·.handles name) with
  | none => exact absurd (untouched_iff_find?.2 hfind) htouched
  | some found => rw [takenBack, takenBack, List.find?_append, hfind, Option.some_or]

/-- A later use takes a registration back if it is the first to handle its name, and
unregisters. -/
theorem takenBack_concat_iff :
    takenBack name (later ++ [made]) = true ↔
      takenBack name later = true ∨ (made.unregisters name = true ∧ Untouched name later) := by
  by_cases huntouched : Untouched name later
  · simp [takenBack_concat_of_untouched huntouched, takenBack_of_untouched huntouched, huntouched]
  · simp [takenBack_concat_of_touched huntouched, huntouched]

theorem stands_concat_iff :
    Stands id name (later ++ [made]) ↔
      Stands id name later ∧ made.registers id = false ∧
        ¬(made.unregisters name = true ∧ Untouched name later) := by
  rw [Stands, Stands, ← Bool.not_eq_true, takenBack_concat_iff]
  simp only [List.mem_append, List.mem_singleton, or_imp, forall_and, forall_eq, not_or,
    Bool.not_eq_true]
  tauto

theorem stands_nil : Stands id name [] :=
  ⟨by simp, rfl⟩

theorem lastRegistration?_eq_none_iff :
    lastRegistration? id history = none ↔ ∀ made ∈ history, made.registers id = false := by
  fun_induction lastRegistration? id history with
  | case1 => simp
  | case2 other name uses later ih =>
      rw [Option.or_eq_none_iff, ih]
      simp [RegistryUse.registers, and_comm]
  | case3 made later hmade ih =>
      have hregisters : made.registers id = false := by
        cases made with
        | register other name uses => exact absurd rfl (hmade other name uses)
        | unregister | forget | trigger | isRegistered | describe | drop => rfl
      rw [ih]
      simp [hregisters]

theorem lastRegistration?_append_register
    (hlater : ∀ made ∈ later, made.registers id = false) (past : List RegistryUse) :
    lastRegistration? id (past ++ .register id callback.name callback.uses :: later) =
      some (callback, later) := by
  induction past with
  | nil => simp [lastRegistration?, lastRegistration?_eq_none_iff.2 hlater]
  | cons made past ih =>
      cases made with
      | register other name uses => rw [List.cons_append, lastRegistration?, ih, Option.some_or]
      | unregister | forget | trigger | isRegistered | describe | drop => exact ih

theorem exists_of_lastRegistration?
    (hlast : lastRegistration? id history = some (callback, later)) :
    ∃ past, history = past ++ .register id callback.name callback.uses :: later ∧
      ∀ made ∈ later, made.registers id = false := by
  fun_induction lastRegistration? id history with
  | case1 => simp at hlast
  | case2 other name uses rest ih =>
      rcases Option.or_eq_some_iff.1 hlast with hrest | ⟨hnone, hhere⟩
      · obtain ⟨past, rfl, hlater⟩ := ih hrest
        exact ⟨_ :: past, rfl, hlater⟩
      · split at hhere
        · next heq =>
            cases hhere
            exact ⟨[], by rw [heq]; rfl, lastRegistration?_eq_none_iff.1 hnone⟩
        · simp at hhere
  | case3 made rest hmade ih =>
      obtain ⟨past, rfl, hlater⟩ := ih hlast
      exact ⟨made :: past, rfl, hlater⟩

theorem lastRegistration?_eq_some_iff :
    lastRegistration? id history = some (callback, later) ↔
      ∃ token, Registered history token id callback later ∧
        ∀ made ∈ later, made.registers id = false := by
  constructor
  · intro hlast
    obtain ⟨past, hhistory, hlater⟩ := exists_of_lastRegistration? hlast
    exact ⟨_, ⟨past, hhistory, rfl⟩, hlater⟩
  · rintro ⟨token, ⟨past, rfl, -⟩, hlater⟩
    exact lastRegistration?_append_register hlater past

theorem standing?_eq_some_iff :
    standing? id history = some callback ↔
      ∃ token later,
        Registered history token id callback later ∧ Stands id callback.name later := by
  rw [standing?, Option.bind_eq_some_iff]
  constructor
  · rintro ⟨⟨last, later⟩, hlast, hstanding⟩
    obtain ⟨token, hregistered, hlater⟩ := lastRegistration?_eq_some_iff.1 hlast
    cases hback : takenBack last.name later with
    | true => simp [hback] at hstanding
    | false =>
        obtain rfl : last = callback := by simpa [hback] using hstanding
        exact ⟨token, later, hregistered, hlater, hback⟩
  · rintro ⟨token, later, hregistered, hlater, hkept⟩
    exact ⟨(callback, later), lastRegistration?_eq_some_iff.2 ⟨token, hregistered, hlater⟩,
      by simp [hkept]⟩

theorem registered_concat_iff :
    Registered (history ++ [made]) token id callback later ↔
      (∃ since, later = since ++ [made] ∧ Registered history token id callback since) ∨
        (later = [] ∧ made = .register id callback.name callback.uses ∧
          token = registrations history + 1) := by
  constructor
  · rintro ⟨past, hhistory, htoken⟩
    rcases List.eq_nil_or_concat later with rfl | ⟨since, last, rfl⟩
    · obtain ⟨rfl, hmade⟩ := List.append_inj' hhistory rfl
      exact .inr ⟨rfl, List.singleton_inj.1 hmade, htoken⟩
    · rw [List.concat_eq_append, ← List.cons_append, ← List.append_assoc] at hhistory
      obtain ⟨rfl, hmade⟩ := List.append_inj' hhistory rfl
      rw [List.concat_eq_append, List.singleton_inj.1 hmade]
      exact .inl ⟨since, rfl, past, rfl, htoken⟩
  · rintro (⟨since, rfl, past, rfl, htoken⟩ | ⟨rfl, rfl, htoken⟩)
    · exact ⟨past, by simp, htoken⟩
    · exact ⟨history, rfl, htoken⟩

/-- The registrations of a longer history are those of the shorter one, and the last use
if it registers. -/
theorem exists_registered_concat_iff {p : List RegistryUse → Prop} :
    (∃ later, Registered (history ++ [made]) token id callback later ∧ p later) ↔
      (∃ since, Registered history token id callback since ∧ p (since ++ [made])) ∨
        (made = .register id callback.name callback.uses ∧ token = registrations history + 1 ∧
          p []) := by
  constructor
  · rintro ⟨later, hregistered, hp⟩
    rcases registered_concat_iff.1 hregistered with ⟨since, rfl, hsince⟩ | ⟨rfl, hmade, htoken⟩
    · exact .inl ⟨since, hsince, hp⟩
    · exact .inr ⟨hmade, htoken, hp⟩
  · rintro (⟨since, hsince, hp⟩ | ⟨hmade, htoken, hp⟩)
    · exact ⟨since ++ [made], registered_concat_iff.2 (.inl ⟨since, rfl, hsince⟩), hp⟩
    · exact ⟨[], registered_concat_iff.2 (.inr ⟨rfl, hmade, htoken⟩), hp⟩

theorem exists_registered_concat_iff_of_not_register (hmade : made.isRegister = false)
    {p : List RegistryUse → Prop} :
    (∃ later, Registered (history ++ [made]) token id callback later ∧ p later) ↔
      ∃ since, Registered history token id callback since ∧ p (since ++ [made]) := by
  rw [exists_registered_concat_iff, or_iff_left]
  rintro ⟨rfl, -⟩
  simp [RegistryUse.isRegister] at hmade

theorem registrations_concat :
    registrations (history ++ [made]) = registrations history + made.isRegister.toNat := by
  cases hregister : made.isRegister <;> simp [registrations, hregister]

/-- No token is beyond the number of registrations. -/
theorem Registered.token_le (hregistered : Registered history token id callback later) :
    token ≤ registrations history := by
  obtain ⟨past, rfl, rfl⟩ := hregistered
  simp [registrations, RegistryUse.isRegister]

/-- A token belongs to one registration. -/
theorem Registered.unique (hfirst : Registered history token id callback later)
    (hsecond : Registered history token id' callback' later') :
    id = id' ∧ callback = callback' ∧ later = later' := by
  induction history using List.reverseRecOn generalizing later later' with
  | nil =>
      obtain ⟨past, hnil, -⟩ := hfirst
      simp at hnil
  | append_singleton history made ih =>
      -- The last use registers with a token beyond all those before it.
      rcases registered_concat_iff.1 hfirst with ⟨since, rfl, hsince⟩ | ⟨rfl, rfl, htoken⟩ <;>
        rcases registered_concat_iff.1 hsecond with
          ⟨since', rfl, hsince'⟩ | ⟨rfl, hmade, htoken'⟩
      · obtain ⟨hid, hcallback, rfl⟩ := ih hsince hsince'
        exact ⟨hid, hcallback, rfl⟩
      · exact absurd hsince.token_le (by omega)
      · exact absurd hsince'.token_le (by omega)
      · obtain ⟨hid, hname, huses⟩ := RegistryUse.register.inj hmade
        have hcallback : callback = callback' :=
          calc
            callback = ⟨callback.name, callback.uses⟩ := rfl
            _ = ⟨callback'.name, callback'.uses⟩ := by rw [hname, huses]
            _ = callback' := rfl
        exact ⟨hid, hcallback, rfl⟩

end Registry

end LivePage
