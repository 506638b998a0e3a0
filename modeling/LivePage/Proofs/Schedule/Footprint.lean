import LivePage.Proofs.Schedule.Writes
import LivePage.Proofs.Store.Footprint

/-!
# Footprint of runs

What runs leave alone, however many there are and however their tasks interleave.
Every write to the page was made by an action of a list that somebody asked for, or
of a branch below it, so whatever no such action names is at every moment as it was
at first.
-/

namespace LivePage

/-- Listeners that write nothing. -/
def Listeners.WriteNothing (listeners : Listeners Listener) : Prop :=
  ∀ component listener, listeners.listener? component = some listener → listener.writes = []

theorem Listeners.WriteNothing.writeOnly {listeners : Listeners Listener}
    (hlisteners : listeners.WriteNothing) (q : StoreOp → Prop) : listeners.WriteOnly q := by
  intro component listener hlistener op hop
  rw [hlisteners component listener hlistener] at hop
  exact absurd hop List.not_mem_nil

namespace Crowd

variable {σ : Type}

/-- The footprint of runs.  If nobody else writes to the page, and no listener does,
then at every moment of every schedule a component that no action writes to is as it
was, of every other one only those fields differ that the actions on it write, no
component is gone, the form differs only in entries that actions write, and route
and user are as they were. -/
theorem footprint (setting : Setting σ) {world : World σ} {moves : List Move}
    (hlisteners : world.listeners.WriteNothing) (hwrites : ∀ ops, .write ops ∉ moves) :
    world.page.Framed (moves.flatMap Move.kinds)
      ((fresh world).play setting moves).machine.world.page := by
  rw [page_play]
  apply PageState.framed_applyAll
  refine forall_writes setting (fun kind hkind context op hop => ?_)
    (hlisteners.writeOnly _) fun ops hmem => absurd hmem (hwrites ops)
  exact Engine.framed_of_mem_effects hkind hop

/-- A page with two components and a form, for the moves of two busy runs. -/
def framedWorld : World Nat where
  page :=
    let state : ComponentState := { data := some (.bool true), visible := some false }
    { components := Dict.ofList [("t", state), ("u", state)], form := Dict.ofList [("f", .null)] }
  host := 0

/-- Two busy runs leave alone what was fetched for the component that they work on,
the other component, and the form. -/
theorem footprint_of_busy :
    let after := ((fresh framedWorld).play .counting busyMoves).machine.world.page
    framedWorld.page.Framed (busyMoves.flatMap Move.kinds) after ∧
      (after.componentOrNew "t").data = (framedWorld.page.componentOrNew "t").data ∧
      after.component? "u" = framedWorld.page.component? "u" ∧
      after.form.get? "f" = framedWorld.page.form.get? "f" := by
  intro after
  have hlisteners : framedWorld.listeners.WriteNothing := by
    intro component listener hlistener
    cases hlistener
  have hwrites : ∀ ops, .write ops ∉ busyMoves := by
    intro ops hmem
    simp [busyMoves] at hmem
  have hframed : framedWorld.page.Framed (busyMoves.flatMap Move.kinds) after :=
    footprint .counting hlisteners hwrites
  have hkinds : busyMoves.flatMap Move.kinds =
      [.callApi default .get none none, .setVisibility "t" .toggle, .setLoading "t" false,
        .filterData "t" "page" (.str "2"), .setLoading "t" true, .setVisibility "t" .toggle,
        .setValue "t" (.str "new") none] := rfl
  refine ⟨hframed, (hframed.targeted "t").data ?_, hframed.untargeted "u" ?_, hframed.form "f" ?_⟩
  all_goals simp [hkinds, ActionKind.Owns, ActionKind.target?, ActionKind.fieldNames,
    ActionKind.formName?]

end Crowd

end LivePage
