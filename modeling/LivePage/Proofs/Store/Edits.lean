import Mathlib.Logic.Function.Iterate
import LivePage.Page.Action
import LivePage.Store.State

/-!
# Edits of one component

What the changes of a page leave of one component.  They are as many edits of its
state as they name it, in their order, and nothing else.  If all of these toggle
the visibility, set a filter parameter, the loading flag or the value, each part of
the state depends on its own edits alone: the visibility is flipped once for every
toggle, and every other part holds what was written last.
-/

namespace LivePage

namespace StoreOp

/-- The edit that a change makes to a component. -/
def edit? (id : String) : StoreOp → Option ComponentState.Edit
  | .edit other change => if other = id then some change else none
  | _ => none

/-- The change does nothing to a component, unless it edits it. -/
def Keeps (id : String) : StoreOp → Prop
  | register other _ => other ≠ id
  | remove other => other ≠ id
  | _ => True

/-- The change has nothing to do with a component. -/
def Spares (id : String) (op : StoreOp) : Prop :=
  op.Keeps id ∧ op.edit? id = none

end StoreOp

namespace PageState

/-- A change that keeps a component makes at most its edit. -/
theorem componentOrNew_apply {id : String} {op : StoreOp} (hkeeps : op.Keeps id)
    (page : PageState) :
    (page.apply op).componentOrNew id =
      (op.edit? id).toList.foldl ComponentState.Edit.apply (page.componentOrNew id) := by
  have hinsert {other : String} (hne : other ≠ id) (state : ComponentState) :
      { page with components := page.components.insert other state }.componentOrNew id =
        page.componentOrNew id := by
    rw [componentOrNew, component?, Dict.get?_insert, if_neg hne]
    rfl
  cases op with
  | register other initial =>
      rw [apply, PageState.register.eq_def]
      split
      · rfl
      · exact hinsert hkeeps _
  | edit other change =>
      rw [apply, PageState.edit, StoreOp.edit?]
      by_cases heq : other = id
      · subst heq
        rw [if_pos rfl, componentOrNew, component?, Dict.get?_insert, if_pos rfl]
        rfl
      · rw [if_neg heq, hinsert heq]
        rfl
  | remove other =>
      rw [apply, remove, componentOrNew, component?, Dict.get?_erase, if_neg hkeeps]
      rfl
  | setForm name value => rfl
  | mergeForm record => rfl

/-- Changes that keep a component make their edits of it, in their order. -/
theorem componentOrNew_applyAll {id : String} {ops : List StoreOp}
    (hkeeps : ∀ op ∈ ops, op.Keeps id) (page : PageState) :
    (page.applyAll ops).componentOrNew id =
      (ops.filterMap (StoreOp.edit? id)).foldl ComponentState.Edit.apply
        (page.componentOrNew id) := by
  induction ops generalizing page with
  | nil => rfl
  | cons op rest ih =>
      obtain ⟨hop, hrest⟩ := List.forall_mem_cons.1 hkeeps
      calc
        (page.applyAll (op :: rest)).componentOrNew id =
            (rest.filterMap (StoreOp.edit? id)).foldl ComponentState.Edit.apply
              ((page.apply op).componentOrNew id) := ih hrest (page.apply op)
        _ = ((op :: rest).filterMap (StoreOp.edit? id)).foldl ComponentState.Edit.apply
              (page.componentOrNew id) := by
          rw [componentOrNew_apply hop, List.filterMap_cons]
          cases op.edit? id <;> rfl

end PageState

namespace ComponentState

namespace Edit

/-- An edit of a component by one of the actions that no other one can spoil: it
sets a filter parameter, toggles the visibility, or sets the loading flag or the
value. -/
inductive Gentle : Edit → Prop where
  | filter (name : String) (value : Json) : Gentle (.filter name value)
  | toggle : Gentle (.visibility .toggle)
  | loading (flag : Bool) : Gentle (.merge (.withLoading flag))
  | value (value : Json) : Gentle (.assign value none)

def isToggle : Edit → Bool
  | visibility .toggle => true
  | _ => false

/-- What an edit writes to a filter parameter. -/
def param? (name : String) : Edit → Option Json
  | filter other value => if other = name then some value else none
  | _ => none

/-- What an edit writes to the loading flag. -/
def loading? : Edit → Option Bool
  | merge patch => patch.loading
  | _ => none

/-- What an edit writes to the value. -/
def value? : Edit → Option Json
  | assign value none => some value
  | _ => none

end Edit

/-- The value of a filter parameter. -/
def param? (state : ComponentState) (name : String) : Option Json :=
  (state.filterParams.getD ∅).get? name

variable {edits : List Edit}

/-- A part of the state that every edit writes or leaves alone holds what was
written last. -/
theorem foldl_eq_getLast? {f : ComponentState → Option β} {w : Edit → Option β}
    (hwrites : ∀ edit ∈ edits, ∀ state, f (edit.apply state) = (w edit).or (f state))
    (state : ComponentState) :
    f (edits.foldl Edit.apply state) = (edits.filterMap w).getLast?.or (f state) := by
  induction edits generalizing state with
  | nil => rfl
  | cons edit rest ih =>
      obtain ⟨hedit, hrest⟩ := List.forall_mem_cons.1 hwrites
      rw [List.foldl_cons, ih hrest, hedit]
      cases hw : w edit with
      | none => rw [List.filterMap_cons_none hw, Option.none_or]
      | some b =>
          rw [List.filterMap_cons_some hw, List.getLast?_cons, Option.some_or]
          cases (rest.filterMap w).getLast? <;> rfl

theorem Edit.Gentle.isVisible_apply {edit : Edit} (hgentle : edit.Gentle)
    (state : ComponentState) :
    (edit.apply state).isVisible = if edit.isToggle then !state.isVisible else state.isVisible := by
  cases hgentle with
  | filter | toggle | value => rfl
  | loading flag => rfl

theorem Edit.Gentle.param?_apply {edit : Edit} (hgentle : edit.Gentle) (name : String)
    (state : ComponentState) :
    (edit.apply state).param? name = (edit.param? name).or (state.param? name) := by
  cases hgentle with
  | filter other value =>
      rw [ComponentState.param?, Edit.apply, Option.getD_some, Dict.get?_insert, Edit.param?]
      split <;> rfl
  | toggle | loading | value => rfl

theorem Edit.Gentle.loading_apply {edit : Edit} (hgentle : edit.Gentle)
    (state : ComponentState) : (edit.apply state).loading = edit.loading?.or state.loading := by
  cases hgentle with
  | filter | toggle | loading | value => rfl

theorem Edit.Gentle.value_apply {edit : Edit} (hgentle : edit.Gentle)
    (state : ComponentState) : (edit.apply state).value = edit.value?.or state.value := by
  cases hgentle with
  | filter | toggle | loading | value => rfl

/-- The visibility is flipped once for every toggle. -/
theorem isVisible_foldl (hgentle : ∀ edit ∈ edits, edit.Gentle) (state : ComponentState) :
    (edits.foldl Edit.apply state).isVisible =
      not^[edits.countP Edit.isToggle] state.isVisible := by
  induction edits generalizing state with
  | nil => rfl
  | cons edit rest ih =>
      obtain ⟨hedit, hrest⟩ := List.forall_mem_cons.1 hgentle
      rw [List.foldl_cons, ih hrest, hedit.isVisible_apply, List.countP_cons]
      split
      · rw [Function.iterate_succ_apply]
      · rfl

/-- None of some edits is lost between two states of a component. -/
structure NoneLost (before : ComponentState) (edits : List Edit) (after : ComponentState) :
    Prop where
  /-- The visibility is flipped once for every toggle. -/
  isVisible : after.isVisible = not^[edits.countP Edit.isToggle] before.isVisible
  /-- Every filter parameter has the value that was written to it last. -/
  param? : ∀ name,
    after.param? name = (edits.filterMap (Edit.param? name)).getLast?.or (before.param? name)
  loading : after.loading = (edits.filterMap Edit.loading?).getLast?.or before.loading
  value : after.value = (edits.filterMap Edit.value?).getLast?.or before.value

/-- None of some gentle edits is lost if they are made one after the other. -/
theorem noneLost_foldl (hgentle : ∀ edit ∈ edits, edit.Gentle) (state : ComponentState) :
    NoneLost state edits (edits.foldl Edit.apply state) where
  isVisible := isVisible_foldl hgentle state
  param? := fun name =>
    foldl_eq_getLast? (f := (ComponentState.param? · name))
      (fun edit hedit => (hgentle edit hedit).param?_apply name) state
  loading := foldl_eq_getLast? (fun edit hedit => (hgentle edit hedit).loading_apply) state
  value := foldl_eq_getLast? (fun edit hedit => (hgentle edit hedit).value_apply) state

end ComponentState

end LivePage
