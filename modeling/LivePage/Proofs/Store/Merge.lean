import LivePage.Proofs.Dict
import LivePage.Store.Component

/-!
# Merging of component states

A component state is known by its parts: six fields and any number of further ones.
Merging acts on every part for itself, and there the patch counts where it holds
something.  All laws of merging are laws of that choice, read part by part.
-/

namespace LivePage

theorem Json.ofDict_injective : Function.Injective ofDict := fun _ _ heq =>
  Dict.ext_entries (Json.obj.inj heq)

namespace ComponentState

/-- A part of a component state. -/
inductive Part where
  | value
  | loading
  | visible
  | data
  | error
  | filterParams
  | further (key : String)
deriving DecidableEq, Repr

/-- What a state holds in a part, as a document. -/
def part? (state : ComponentState) : Part → Option Json
  | .value => state.value
  | .loading => state.loading.map .bool
  | .visible => state.visible.map .bool
  | .data => state.data
  | .error => state.error.map .str
  | .filterParams => state.filterParams.map .ofDict
  | .further key => state.extra.get? key

/-- States with the same parts are equal. -/
theorem ext_part? {state other : ComponentState} (h : ∀ part, state.part? part = other.part? part) :
    state = other := by
  have hbool := Option.map_injective fun _ _ heq => Json.bool.inj heq
  have herror := Option.map_injective (fun _ _ heq => Json.str.inj heq) (h .error)
  have hparams := Option.map_injective Json.ofDict_injective (h .filterParams)
  have hextra : state.extra = other.extra := Dict.ext_get? fun key => h (.further key)
  cases state
  cases other
  congr
  exacts [h .value, hbool (h .loading), hbool (h .visible), h .data]

/-- In every part the patch counts, or else the state. -/
theorem part?_merge (state patch : ComponentState) (part : Part) :
    (state.merge patch).part? part = (patch.part? part).or (state.part? part) := by
  cases part with
  | value | data => rfl
  | loading | visible | error | filterParams => exact Option.map_or
  | further key => exact Dict.get?_union ..

@[simp]
theorem part?_empty (part : Part) : ({} : ComponentState).part? part = none := by
  cases part <;> rfl

/-- No part is held by both states. -/
def Disjoint (state other : ComponentState) : Prop :=
  ∀ part, state.part? part = none ∨ other.part? part = none

theorem merge_assoc (first second third : ComponentState) :
    (first.merge second).merge third = first.merge (second.merge third) := by
  apply ext_part?
  intro part
  rw [part?_merge, part?_merge, part?_merge, part?_merge, Option.or_assoc]

@[simp]
theorem merge_empty (state : ComponentState) : state.merge {} = state := by
  apply ext_part?
  intro part
  rw [part?_merge, part?_empty, Option.none_or]

@[simp]
theorem empty_merge (state : ComponentState) : merge {} state = state := by
  apply ext_part?
  intro part
  rw [part?_merge, part?_empty, Option.or_none]

@[simp]
theorem merge_self (state : ComponentState) : state.merge state = state := by
  apply ext_part?
  intro part
  rw [part?_merge, Option.or_self]

theorem merge_comm_of_disjoint {state other : ComponentState} (hdisjoint : state.Disjoint other) :
    state.merge other = other.merge state := by
  apply ext_part?
  intro part
  rw [part?_merge, part?_merge]
  rcases hdisjoint part with hnone | hnone
  · rw [hnone, Option.or_none, Option.none_or]
  · rw [hnone, Option.or_none, Option.none_or]

end ComponentState

end LivePage
