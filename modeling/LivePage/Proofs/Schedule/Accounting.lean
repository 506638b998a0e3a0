import LivePage.Proofs.Schedule.Scenes
import LivePage.Proofs.Store.Edits
import LivePage.Proofs.Store.Footprint

/-!
# Accounting for refreshes

Which listeners are called, how often and when.  A listener is called once for every action
that is executed and asks for a refresh of its component, and never else; and an action that
sets a filter parameter has done so, and nothing else, when the listener is called.
-/

namespace LivePage

namespace PageState

/-- One filter parameter of a component was set between two pages, and they agree on
everything else. -/
structure Filtered (before : PageState) (component name : String) (value : Json)
    (after : PageState) : Prop where
  isSome : (after.component? component).isSome
  value : (after.componentOrNew component).param? name = some value
  params : ∀ other, other ≠ name →
    (after.componentOrNew component).param? other =
      (before.componentOrNew component).param? other
  fields : ComponentState.AgreeBut (· = "filterParams") (before.componentOrNew component)
    (after.componentOrNew component)
  others : ∀ other, other ≠ component → after.component? other = before.component? other
  form : after.form = before.form
  route : after.route = before.route
  user : after.user = before.user

theorem filtered_edit (page : PageState) (component name : String) (value : Json) :
    page.Filtered component name value (page.edit component (.filter name value)) := by
  have hown : (page.edit component (.filter name value)).component? component =
      some (ComponentState.Edit.apply (page.componentOrNew component) (.filter name value)) := by
    rw [edit, component?, Dict.get?_insert, if_pos rfl]
  have hnew : (page.edit component (.filter name value)).componentOrNew component =
      ComponentState.Edit.apply (page.componentOrNew component) (.filter name value) := by
    rw [componentOrNew, hown, Option.getD_some]
  have hgentle := ComponentState.Edit.Gentle.filter name value
  constructor
  case isSome => rw [hown, Option.isSome_some]
  case value =>
    rw [hnew, hgentle.param?_apply, ComponentState.Edit.param?, if_pos rfl, Option.some_or]
  case params =>
    intro other hother
    rw [hnew, hgentle.param?_apply, ComponentState.Edit.param?, if_neg hother.symm,
      Option.none_or]
  case fields =>
    rw [hnew]
    exact (ComponentState.agreeBut_apply _ _).mono fun field hfield => List.mem_singleton.1 hfield
  case others =>
    intro other hother
    rw [edit, component?, Dict.get?_insert, if_neg hother.symm]
    rfl
  all_goals rfl

end PageState

/-- Surroundings that keep the listeners that were called, and answer every request after
five milliseconds. -/
def Setting.logging : Setting (List Listener) where
  engine := {}
  host := {
    answer := fun _ _ called => ({ delay := 5, reply := .ok default }, called)
    call := fun _ called => called
    notify := fun listener called => called ++ [listener] }

namespace Scene

variable {σ : Type}

/-- Accounting for refreshes.  Whatever runs and tasks there are on a page, in whatever order
they have their turns, and however listeners come and go meanwhile: the listeners that are
called are those of the refreshes whose component has one at that moment, one call for each,
in order.  The refreshes that an actor has asked for are those of the actions that it came to
and executed and that set a filter parameter or refresh, one for each, in order, and those of
the actions that are left come later; nobody else asks for one.  If the refresh belongs to an
action that sets a filter parameter, the page at that moment is the one that was there
directly before with this parameter set, and nothing else about it is different.  No action
that asks for a refresh fails, an action that only refreshes does nothing else at once, and
without a listener a refresh changes nothing at all. -/
theorem refresh_accounting (setting : Setting σ) {called : σ → List Listener}
    (hlogs : setting.host.Logs called) (world : World σ) (happenings : List Happening) :
    let scene := (fresh world).play setting happenings
    called scene.crowd.machine.world.host =
        called world.host ++ scene.refreshings.filterMap (fun entry => entry.2.listener?) ∧
      (∀ actor, scene.crowd.errand? actor = none → scene.refreshingsOf actor = []) ∧
      (∀ actor errand, scene.crowd.errand? actor = some errand → ∃ later done left,
        setting.engine.Course errand.depth errand.context errand.actions
            (scene.crowd.actsOf actor ++ later) (done ++ left) ∧
          (scene.crowd.IsOver actor → later = []) ∧
          (scene.refreshingsOf actor).map Refreshing.reload =
            done.filterMap setting.engine.reload? ∧
          Act.reloads none later = left.filterMap setting.engine.reload? ∧
          ∀ trial ∈ done ++ left,
            ((setting.engine.reload? trial).isSome → trial.outcome = .success none) ∧
              ∀ component, trial.action.kind = .refresh component → ∀ effect,
                .performed effect ∈ trial.told → effect = .refresh component) ∧
      (∀ entry ∈ scene.refreshings, ∀ name value,
        entry.2.reload.filter = some (name, value) → ∃ before,
          entry.2.last = some (before, .store (.edit entry.2.component (.filter name value))) ∧
            before.Filtered entry.2.component name value entry.2.world.page) ∧
      ∀ (other : World σ) component, other.listeners.listener? component = none →
        other.perform setting.host (.refresh component) = other := by
  intro scene
  have hkept : scene.Kept setting world := (kept_fresh world).play happenings
  refine ⟨hkept.called called hlogs, fun actor hnone => ?_, fun actor errand herrand => ?_,
    fun entry hentry name value hfilter => ?_,
    fun _ _ => World.perform_refresh_of_not_listening setting.host⟩
  · have hreloads := hkept.reloads actor
    rw [hkept.follow.actsOf_eq_nil hnone] at hreloads
    exact List.map_eq_nil_iff.1 hreloads
  · obtain ⟨later, run, hwalk, hover⟩ := hkept.follow.exists_walk herrand
    obtain ⟨trials, hcourse⟩ := Engine.exists_course_iff.2 ⟨run, hwalk⟩
    have hreloads := hcourse.asks.reloads none Act.isClear_none
    rw [Act.reloads_append, Act.reloads_of_isClear (hkept.isClear actor)] at hreloads
    obtain ⟨done, left, rfl, hdone, hleft⟩ := List.filterMap_eq_append_iff.1 hreloads.symm
    refine ⟨later, done, left, hcourse, hover, (hkept.reloads actor).trans hdone.symm,
      hleft.symm, fun trial htrial => ?_⟩
    have hattempted := hcourse.attempted trial htrial
    exact ⟨hattempted.outcome_of_reload?, fun component hkind effect =>
      hattempted.eq_refresh hkind⟩
  · obtain ⟨before, hlast⟩ := Refreshing.exists_of_filter hfilter
    refine ⟨before, hlast, ?_⟩
    rw [hkept.page entry hentry before _ hlast]
    exact before.filtered_edit entry.2.component name value

/-- A run that sets a filter parameter, refreshes if the form is ready, which it is not,
refreshes a component that nobody listens for, starts a task that refreshes a list after five
milliseconds, and refreshes behind the answer to a request. -/
def reloading : Errand where
  actions := [
    { kind := .filterData "table" "status" (.bool true) },
    { kind := .refresh "table", condition := some { field := "form.ready", operator := .isTrue } },
    { kind := .refresh "ghost" },
    { kind := .refresh "list", detached := true, delay := some 5 },
    { kind := .callApi default .get none none, onSuccess := some [{ kind := .refresh "table" }] }]

/-- The listener of the table is called twice, behind the change of the filter parameter and
behind the answer, where another one has come in its place; the one of the list, which came
meanwhile, is called in between. -/
theorem refresh_accounting_of_reloading :
    let first : Listeners Listener := (({} : Listeners Listener).register "table" ⟨"old", []⟩).1
    let second := ((first.register "table" ⟨"new", []⟩).1.register "list" ⟨"list", []⟩).1
    let world : World (List Listener) := { page := default, listeners := first, host := [] }
    let scene := (fresh world).play .logging [.move (.enter reloading), .move (.turn 0),
      .relisten second, .move (.tick 5), .move (.turn 0), .move (.goOn 0)]
    scene.crowd.machine.world.host.map Listener.name = ["old", "list", "new"] ∧
      scene.refreshings.map (·.2.component) = ["table", "ghost", "list", "table"] ∧
      ∃ entry ∈ scene.refreshings, ∃ before, entry.2.last.map Prod.fst = some before ∧
        before.Filtered "table" "status" (.bool true) entry.2.world.page := by
  intro first second world scene
  have hlogs : (Setting.logging).host.Logs id := ⟨fun _ _ _ => rfl, fun _ _ => rfl,
    fun _ _ => rfl, fun _ => rfl⟩
  obtain ⟨hcalled, -, -, hfiltered, -⟩ := refresh_accounting .logging hlogs world
    [.move (.enter reloading), .move (.turn 0), .relisten second, .move (.tick 5),
      .move (.turn 0), .move (.goOn 0)]
  refine ⟨?_, by decide +kernel, ?_⟩
  · change List.map Listener.name (id scene.crowd.machine.world.host) = _
    rw [hcalled]
    decide +kernel
  · obtain ⟨before, hlast, hpage⟩ := hfiltered _ (.head _) "status" (.bool true) rfl
    exact ⟨_, .head _, before, by rw [hlast]; rfl, hpage⟩

end Scene

end LivePage
