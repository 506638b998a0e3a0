import LivePage.Proofs.Page.Format
import LivePage.Proofs.Schedule.Writes
import LivePage.Proofs.Store.Regular
import LivePage.Run.Session

/-!
# Stored states

What is true of every component state that a page can come to hold.  The page starts
from a document, and is then changed by runs, by listeners and by others, in any order
that a schedule allows.
-/

namespace LivePage

/-- The states that a page starts from are regular and hold no null. -/
theorem Session.initialState_of_decode? {j : Json} {page : Page}
    (hdecode : Page.decode? j = some page) :
    (Session.initialState page).Regular ∧ ∀ id, ¬(Session.initialState page).HoldsNull id := by
  have hregister : initialState page = (PageState.ofPage page).applyAll
      (page.components.entries.map fun entry => .register entry.1 entry.2.initialState) := by
    rw [initialState, PageState.applyAll, List.foldl_map]
    rfl
  have hinitial : ∀ entry ∈ page.components.entries, ∀ state ∈ entry.2.initialState,
      state.Regular ∧ ¬state.HoldsNull := by
    intro entry hentry state hstate
    obtain ⟨k, hcomponent⟩ := Page.exists_of_components hdecode entry hentry
    obtain ⟨k, hstate⟩ := Component.exists_of_initialState hcomponent state hstate
    exact ComponentState.regular_of_decode? hstate
  rw [hregister]
  constructor
  · apply PageState.Regular.applyAll
    · intro id state hstate
      cases hstate
    · intro op hop
      obtain ⟨entry, hentry, rfl⟩ := List.mem_map.1 hop
      exact fun state hstate => (hinitial entry hentry state hstate).1
  · intro id hnull
    rcases hnull.of_applyAll with ⟨state, hstate, -⟩ | ⟨op, hop, hwrites⟩
    · cases hstate
    · obtain ⟨entry, hentry, rfl⟩ := List.mem_map.1 hop
      obtain ⟨-, state, hstate, hnull⟩ := hwrites
      exact (hinitial entry hentry state hstate).2 hnull

namespace Crowd

variable {σ : Type}

/-- Pages stay regular if what others and listeners write is regular. -/
theorem regular_play (setting : Setting σ) {world : World σ} (hstart : world.page.Regular)
    {moves : List Move} (hlisteners : world.listeners.WriteOnly StoreOp.Regular)
    (hwrites : ∀ ops, .write ops ∈ moves → ∀ op ∈ ops, op.Regular) :
    ((fresh world).play setting moves).machine.world.page.Regular := by
  rw [page_play]
  apply hstart.applyAll
  exact forall_writes setting (fun _ _ _ _ hop => Engine.regular_of_mem_effects hop) hlisteners
    hwrites

/-- Which stored states survive being written and read.  The state of a component that
a page holds at any moment of any schedule is read back from its encoding without the
nulls in its value and in its data.  So it is read back as it was unless it holds such
a null, and it does so only if the null was written to that component. -/
theorem stored_states_read_back (setting : Setting σ) {j : Json} {page : Page}
    (hdecode : Page.decode? j = some page) {world : World σ}
    (hworld : world.page = Session.initialState page) {moves : List Move}
    (hlisteners : world.listeners.WriteOnly StoreOp.Regular)
    (hwrites : ∀ ops, .write ops ∈ moves → ∀ op ∈ ops, op.Regular)
    {id : String} {state : ComponentState}
    (hstate : ((fresh world).play setting moves).machine.world.page.component? id = some state) :
    ComponentState.decode? state.encode = some state.withoutNulls ∧
      (ComponentState.decode? state.encode = some state ↔ ¬state.HoldsNull) ∧
      (state.HoldsNull → ∃ op ∈ ((fresh world).play setting moves).writes world.listeners,
        op.WritesNull id) := by
  obtain ⟨hstart, hnulls⟩ := Session.initialState_of_decode? hdecode
  rw [← hworld] at hstart hnulls
  have hops : ∀ op ∈ ((fresh world).play setting moves).writes world.listeners, op.Regular :=
    forall_writes setting (fun _ _ _ _ hop => Engine.regular_of_mem_effects hop) hlisteners hwrites
  have hpage := page_play setting world moves
  have hregular : state.Regular := by
    rw [hpage] at hstate
    exact hstart.applyAll hops id state hstate
  refine ⟨ComponentState.decode?_encode_of_regular hregular,
    ComponentState.decode?_encode_eq_self_iff hregular, fun hnull => ?_⟩
  have hholds : ((fresh world).play setting moves).machine.world.page.HoldsNull id :=
    ⟨state, hstate, hnull⟩
  rw [hpage] at hholds
  exact hholds.of_applyAll.resolve_left (hnulls id)

/-- A page with one component, whose data somebody clears by writing null to it and
whose value an action sets to null. -/
def clearedPage : Page where
  components := Dict.ofList [("t", {})]

def clearingMoves : List Move :=
  [.write [.edit "t" (.field "data" .null)],
    .enter { actions := [{ kind := .setValue "t" .null none }] }]

/-- The cleared component has a state that is not read back as it was. -/
theorem stored_states_read_back_of_clearing :
    let world : World Nat := { page := Session.initialState clearedPage, host := 0 }
    ∃ state, ((fresh world).play .counting clearingMoves).machine.world.page.component? "t" =
        some state ∧
      state.value = some .null ∧ state.data = some .null ∧
      ComponentState.decode? state.encode = some state.withoutNulls ∧
      ComponentState.decode? state.encode ≠ some state := by
  intro world
  have hdecode : Page.decode? (.obj [("components", .obj [("t", .obj [])])]) = some clearedPage :=
    rfl
  have hlisteners : world.listeners.WriteOnly StoreOp.Regular := by
    intro component listener hlistener
    cases hlistener
  have hwrites : ∀ ops, .write ops ∈ clearingMoves → ∀ op ∈ ops, op.Regular := by
    intro ops hmem op hop
    simp only [clearingMoves, List.mem_cons, Move.write.injEq, List.not_mem_nil, or_false,
      reduceCtorEq] at hmem
    subst hmem
    rw [List.mem_singleton.1 hop]
    trivial
  have hstate : ((fresh world).play .counting clearingMoves).machine.world.page.component? "t" =
      some { ComponentState.seed with value := some .null, data := some .null } := rfl
  obtain ⟨hread, hsurvives, -⟩ :=
    stored_states_read_back .counting hdecode rfl hlisteners hwrites hstate
  exact ⟨_, hstate, rfl, rfl, hread, fun hsame => hsurvives.1 hsame (.inl rfl)⟩

end Crowd

end LivePage
