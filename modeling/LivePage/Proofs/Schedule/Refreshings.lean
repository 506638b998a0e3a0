import LivePage.Proofs.Run.Course
import LivePage.Proofs.Schedule.History

/-!
# Refreshes at their moments

What a turn asks to be refreshed, and what the listener finds that is called then.  A
refresh is kept with the world at its moment and with what was done directly before it in
the same turn.  The listeners that a turn calls are those of its refreshes, one for each
refresh of a component that has a listener at its moment; and where a filter parameter was
set directly before a refresh, the page at that moment is the page behind this change.
-/

namespace LivePage

/-- Surroundings from which one can tell the listeners that were called, in order. -/
structure Host.Logs (host : Host σ) (called : σ → List Listener) : Prop where
  answer : ∀ page request state, called (host.answer page request state).2 = called state
  call : ∀ call state, called (host.call call state) = called state
  notify : ∀ listener state, called (host.notify listener state) = called state ++ [listener]
  rest : ∀ state, called (host.rest state) = called state

/-- A refresh at its moment. -/
structure Refreshing (σ : Type) where
  component : String
  world : World σ
  /-- The effect directly before it, with the page that it was done on. -/
  last : Option (PageState × Effect)

namespace Refreshing

variable {σ : Type}

/-- What was asked for. -/
def reload (refreshing : Refreshing σ) : Reload where
  component := refreshing.component
  filter := (refreshing.last.map Prod.snd).bind (Effect.filter? refreshing.component)

/-- The listener that is called. -/
def listener? (refreshing : Refreshing σ) : Option Listener :=
  refreshing.world.listeners.listener? refreshing.component

/-- The filter parameter of a refresh was set by the effect directly before it. -/
theorem exists_of_filter {refreshing : Refreshing σ} {name : String} {value : Json}
    (hfilter : refreshing.reload.filter = some (name, value)) :
    ∃ page, refreshing.last =
      some (page, .store (.edit refreshing.component (.filter name value))) := by
  obtain ⟨effect, heffect, hset⟩ := Option.bind_eq_some_iff.1 hfilter
  obtain ⟨⟨page, _⟩, hlast, rfl⟩ := Option.map_eq_some_iff.1 heffect
  exact ⟨page, hlast.trans (by rw [← Effect.filter?_eq_some_iff.1 hset])⟩

end Refreshing

/-- The refresh that an effect is on a world. -/
def Effect.refreshing? (last : Option (PageState × Effect)) (world : World σ) :
    Effect → Option (Refreshing σ)
  | .refresh component => some { component, world, last }
  | _ => none

theorem Effect.map_reload_refreshing? (last : Option (PageState × Effect)) (world : World σ)
    (effect : Effect) :
    (effect.refreshing? last world).map Refreshing.reload =
      effect.reload? (last.map Prod.snd) := by
  cases effect <;> rfl

namespace World

variable {σ : Type} {host : Host σ} {called : σ → List Listener}

/-- An effect calls a listener if it is a refresh of a component that has one. -/
theorem called_perform (hlogs : host.Logs called) (world : World σ) (effect : Effect)
    (last : Option (PageState × Effect)) :
    called (world.perform host effect).host =
      called world.host ++
        (effect.refreshing? last world).toList.filterMap Refreshing.listener? := by
  cases effect with
  | store op => exact (List.append_nil _).symm
  | call call => exact (hlogs.call call world.host).trans (List.append_nil _).symm
  | refresh component =>
      rw [perform, Effect.refreshing?, Option.toList_some, List.filterMap_cons,
        Refreshing.listener?]
      cases world.listeners.listener? component with
      | none => exact (List.append_nil _).symm
      | some listener => exact hlogs.notify listener world.host

/-- Without a listener a refresh changes nothing. -/
theorem perform_refresh_of_not_listening (host : Host σ) {world : World σ} {component : String}
    (hnone : world.listeners.listener? component = none) :
    world.perform host (.refresh component) = world := by
  rw [perform, hnone]

end World

namespace Machine

variable {σ : Type} {setting : Setting σ}

/-- The refreshes that a script asks for in its turn, if something was done directly before
it. -/
def refreshings (setting : Setting σ) :
    Script α → Option (PageState × Effect) → Machine σ → List (Refreshing σ)
  | .done _, _, _ => []
  | .perform effect next, last, machine =>
      (effect.refreshing? last machine.world).toList ++
        refreshings setting next (some (machine.world.page, effect))
          (machine.perform setting effect)
  | .observe next, _, machine => refreshings setting (next machine.world.page) none machine
  | .pause ms next, _, machine => if ms = 0 then refreshings setting next none machine else []
  | .request message next, _, machine =>
      let (answer, machine) := machine.answer setting message
      if answer.delay = 0 then refreshings setting (next answer.reply) none machine else []
  | .start job next, _, machine =>
      let (task, machine) := machine.start setting job
      refreshings setting (next task) none machine

theorem refreshings_request (setting : Setting σ) (message : HttpRequest)
    (next : HttpReply → Script α) (last : Option (PageState × Effect)) (machine : Machine σ) :
    refreshings setting (.request message next) last machine =
      if (machine.answer setting message).1.delay = 0 then
        refreshings setting (next (machine.answer setting message).1.reply) none
          (machine.answer setting message).2
      else [] := rfl

/-- The refreshes of a turn are those among its acts. -/
theorem map_reload_refreshings (setting : Setting σ) (script : Script α)
    (last : Option (PageState × Effect)) (machine : Machine σ) :
    (refreshings setting script last machine).map Refreshing.reload =
      Act.reloads (last.map Prod.snd) (acts setting script machine) := by
  induction script generalizing last machine with
  | done result => rfl
  | perform effect next ih =>
      rw [refreshings, List.map_append, ih, acts, Act.reloads, ← effect.map_reload_refreshing?]
      cases effect.refreshing? last machine.world <;> rfl
  | observe next ih => exact ih machine.world.page none machine
  | pause ms next ih =>
      rw [refreshings, acts]
      split
      · exact ih none machine
      · rfl
  | request message next ih =>
      rw [refreshings_request, acts_request]
      split
      · exact ih _ none (machine.answer setting message).2
      · rfl
  | start job next ih => exact ih machine.tasks.length none (machine.start setting job).2

/-- The listeners that are called in a turn are those of its refreshes. -/
theorem called_advance {called : σ → List Listener} (hlogs : setting.host.Logs called)
    (script : Script α) (last : Option (PageState × Effect)) (machine : Machine σ) :
    called (advance setting script machine).2.world.host =
      called machine.world.host ++
        (refreshings setting script last machine).filterMap Refreshing.listener? := by
  induction script generalizing last machine with
  | done result => exact (List.append_nil _).symm
  | perform effect next ih =>
      have heffect := World.called_perform hlogs machine.world effect last
      rw [advance, ih (some (machine.world.page, effect)), refreshings, List.filterMap_append,
        ← List.append_assoc, ← heffect]
      rfl
  | observe next ih => exact ih machine.world.page none machine
  | pause ms next ih =>
      rw [advance, refreshings]
      split
      · exact ih none machine
      · exact (List.append_nil _).symm
  | request message next ih =>
      have hanswer : called (machine.answer setting message).2.world.host =
          called machine.world.host := hlogs.answer ..
      rw [advance_request, refreshings_request]
      split
      · rw [← hanswer]
        exact ih _ none (machine.answer setting message).2
      · exact hanswer.trans (List.append_nil _).symm
  | start job next ih => exact ih machine.tasks.length none (machine.start setting job).2

/-- The page is the one behind the change that was made last. -/
def IsBehind (machine : Machine σ) (last : Option (PageState × Effect)) : Prop :=
  ∀ page op, last = some (page, .store op) → machine.world.page = page.apply op

theorem isBehind_none (machine : Machine σ) : machine.IsBehind none :=
  fun _ _ hlast => nomatch hlast

/-- A refresh finds the page behind the change that was made directly before it. -/
theorem page_of_mem_refreshings {script : Script α} {last : Option (PageState × Effect)}
    {machine : Machine σ} (hbehind : machine.IsBehind last) {refreshing : Refreshing σ}
    (hmem : refreshing ∈ refreshings setting script last machine) {page : PageState}
    {op : StoreOp} (hlast : refreshing.last = some (page, .store op)) :
    refreshing.world.page = page.apply op := by
  induction script generalizing last machine with
  | done result => exact absurd hmem List.not_mem_nil
  | perform effect next ih =>
      rcases List.mem_append.1 hmem with hown | hlater
      · cases effect with
        | refresh component =>
            obtain rfl := List.mem_singleton.1 hown
            exact hbehind page op hlast
        | store | call => exact absurd hown List.not_mem_nil
      · refine ih (fun before change heq => ?_) hlater
        obtain ⟨rfl, rfl⟩ := Prod.mk.inj (Option.some.inj heq)
        rfl
  | observe next ih => exact ih _ machine.isBehind_none hmem
  | pause ms next ih =>
      rw [refreshings] at hmem
      split at hmem
      · exact ih machine.isBehind_none hmem
      · exact absurd hmem List.not_mem_nil
  | request message next ih =>
      rw [refreshings_request] at hmem
      split at hmem
      · exact ih _ (isBehind_none _) hmem
      · exact absurd hmem List.not_mem_nil
  | start job next ih => exact ih _ (isBehind_none _) hmem

end Machine

end LivePage
