import LivePage.Proofs.Store.Encoding
import LivePage.Proofs.Store.Footprint

/-!
# Regular states

Which changes keep the further fields of component states apart from the built-in
ones, and which bring in a null.  Writing under a key never makes a further field of a
built-in name, and neither does merging a patch that has none.  A null gets into a
value or into data only if a change writes one.
-/

namespace LivePage

namespace ComponentState

theorem Regular.merge {state patch : ComponentState} (hstate : state.Regular)
    (hpatch : patch.Regular) : (state.merge patch).Regular := by
  intro key hkey
  rw [ComponentState.merge, Dict.get?_union, hpatch key hkey, hstate key hkey, Option.none_or]

theorem Regular.setField {state : ComponentState} (hstate : state.Regular) (key : String)
    (value : Json) : (state.setField key value).Regular := by
  rw [ComponentState.setField.eq_def]
  split
  case h_6 => split <;> exact hstate
  case h_7 hvalue hdata hloading hvisible herror hparams =>
    intro name hname
    have hne : key ≠ name := by
      rintro rfl
      simp only [builtinNames, List.mem_cons, List.not_mem_nil, or_false] at hname
      rcases hname with heq | heq | heq | heq | heq | heq
      exacts [hvalue heq, hloading heq, hvisible heq, hdata heq, herror heq, hparams heq]
    rw [Dict.get?_insert, if_neg hne]
    exact hstate name hname
  all_goals exact hstate

theorem regular_seed : seed.Regular := fun _ _ => rfl

/-- The edit merges a regular patch, if it merges one. -/
def Edit.Regular : Edit → Prop
  | merge patch => patch.Regular
  | _ => True

theorem Regular.apply {state : ComponentState} (hstate : state.Regular) {edit : Edit}
    (hedit : edit.Regular) : (edit.apply state).Regular := by
  cases edit with
  | merge patch => exact hstate.merge hedit
  | assign value named =>
      cases named with
      | none => exact hstate
      | some key =>
          have hset : Regular { state with value := some value } := hstate
          exact hset.setField key value
  | filter name value => exact hstate
  | visibility change => exact hstate
  | field key value => exact hstate.setField key value

/-- The edit writes null as the value or as data. -/
def Edit.WritesNull : Edit → Prop
  | merge patch => patch.HoldsNull
  | assign value _ => value = .null
  | field key value => value = .null ∧ (key = "value" ∨ key = "data")
  | _ => False

theorem HoldsNull.of_merge {state patch : ComponentState} (hnull : (state.merge patch).HoldsNull) :
    state.HoldsNull ∨ patch.HoldsNull := by
  rcases hnull with hvalue | hdata
  · rcases Option.or_eq_some_iff.1 hvalue with hpatch | ⟨-, hstate⟩
    · exact .inr (.inl hpatch)
    · exact .inl (.inl hstate)
  · rcases Option.or_eq_some_iff.1 hdata with hpatch | ⟨-, hstate⟩
    · exact .inr (.inr hpatch)
    · exact .inl (.inr hstate)

theorem HoldsNull.of_setField {state : ComponentState} {key : String} {value : Json}
    (hnull : (state.setField key value).HoldsNull) :
    state.HoldsNull ∨ value = .null ∧ (key = "value" ∨ key = "data") := by
  rw [ComponentState.setField.eq_def] at hnull
  split at hnull
  case h_1 =>
    rcases hnull with hvalue | hdata
    · exact .inr ⟨Option.some.inj hvalue, .inl rfl⟩
    · exact .inl (.inr hdata)
  case h_2 =>
    rcases hnull with hvalue | hdata
    · exact .inl (.inl hvalue)
    · exact .inr ⟨Option.some.inj hdata, .inr rfl⟩
  case h_6 => split at hnull <;> exact .inl hnull
  all_goals exact .inl hnull

theorem HoldsNull.of_assign {state : ComponentState} {value : Json} {named : Option String}
    (hnull : (Edit.apply state (.assign value named)).HoldsNull) :
    state.HoldsNull ∨ value = .null := by
  have hset (hnull : HoldsNull { state with value := some value }) :
      state.HoldsNull ∨ value = .null := by
    rcases hnull with hvalue | hdata
    · exact .inr (Option.some.inj hvalue)
    · exact .inl (.inr hdata)
  cases named with
  | none => exact hset hnull
  | some key =>
      rcases HoldsNull.of_setField hnull with hnull | ⟨hvalue, -⟩
      · exact hset hnull
      · exact .inr hvalue

/-- A null that an edit leaves was there or was written. -/
theorem HoldsNull.of_apply {state : ComponentState} {edit : Edit}
    (hnull : (edit.apply state).HoldsNull) : state.HoldsNull ∨ edit.WritesNull := by
  cases edit with
  | merge patch => exact HoldsNull.of_merge hnull
  | assign value named => exact HoldsNull.of_assign hnull
  | filter name value => exact .inl hnull
  | visibility change => exact .inl hnull
  | field key value => exact HoldsNull.of_setField hnull

end ComponentState

namespace StoreOp

/-- The states and patches that come with the change are regular. -/
def Regular : StoreOp → Prop
  | register _ initial => ∀ state ∈ initial, state.Regular
  | edit _ change => change.Regular
  | _ => True

/-- The change writes null as the value or as data of a component. -/
def WritesNull (id : String) : StoreOp → Prop
  | register other initial => other = id ∧ ∃ state ∈ initial, state.HoldsNull
  | edit other change => other = id ∧ change.WritesNull
  | _ => False

end StoreOp

namespace PageState

/-- The states of all components are regular. -/
def Regular (page : PageState) : Prop :=
  ∀ id state, page.component? id = some state → state.Regular

/-- The state of a component holds a null. -/
def HoldsNull (page : PageState) (id : String) : Prop :=
  ∃ state, page.component? id = some state ∧ state.HoldsNull

theorem component?_register {page : PageState} {id other : String}
    {initial : Option ComponentState} {state : ComponentState}
    (hstate : (page.register id initial).component? other = some state) :
    page.component? other = some state ∨
      id = other ∧ state = initial.elim .seed ComponentState.seed.merge := by
  rw [register.eq_def] at hstate
  split at hstate
  · exact .inl hstate
  · change Dict.get? (Dict.insert _ _ _) other = _ at hstate
    rw [Dict.get?_insert] at hstate
    split at hstate
    · next heq =>
        refine .inr ⟨heq, ?_⟩
        rw [← Option.some.inj hstate]
        cases initial <;> rfl
    · exact .inl hstate

/-- The state that a component has after a change is the one before it, the one that
it is registered with, or an edit of the one before it. -/
theorem component?_apply {page : PageState} {op : StoreOp} {id : String} {state : ComponentState}
    (hstate : (page.apply op).component? id = some state) :
    page.component? id = some state ∨
      (∃ initial, op = .register id initial ∧
        state = initial.elim .seed ComponentState.seed.merge) ∨
      ∃ change, op = .edit id change ∧ state = change.apply (page.componentOrNew id) := by
  cases op with
  | register other initial =>
      rcases component?_register hstate with hold | ⟨rfl, hnew⟩
      · exact .inl hold
      · exact .inr (.inl ⟨initial, rfl, hnew⟩)
  | edit other change =>
      change (page.edit other change).component? id = _ at hstate
      rw [component?_edit] at hstate
      split at hstate
      · next heq =>
          subst heq
          exact .inr (.inr ⟨change, rfl, (Option.some.inj hstate).symm⟩)
      · exact .inl hstate
  | remove other =>
      change Dict.get? (Dict.erase _ _) id = _ at hstate
      rw [Dict.get?_erase] at hstate
      split at hstate
      · cases hstate
      · exact .inl hstate
  | setForm name value => exact .inl hstate
  | mergeForm record => exact .inl hstate

theorem Regular.componentOrNew {page : PageState} (hpage : page.Regular) (id : String) :
    (page.componentOrNew id).Regular := by
  rw [PageState.componentOrNew]
  cases hstate : page.component? id with
  | none => exact fun _ _ => rfl
  | some state => exact hpage id state hstate

theorem Regular.apply {page : PageState} (hpage : page.Regular) {op : StoreOp}
    (hop : op.Regular) : (page.apply op).Regular := by
  intro id state hstate
  rcases component?_apply hstate with hold | ⟨initial, rfl, rfl⟩ | ⟨change, rfl, rfl⟩
  · exact hpage id state hold
  · cases initial with
    | none => exact ComponentState.regular_seed
    | some initial =>
        have hinitial : initial.Regular := hop initial rfl
        exact ComponentState.regular_seed.merge hinitial
  · have hchange : change.Regular := hop
    exact (hpage.componentOrNew id).apply hchange

theorem Regular.applyAll {page : PageState} (hpage : page.Regular) {ops : List StoreOp}
    (hops : ∀ op ∈ ops, op.Regular) : (page.applyAll ops).Regular := by
  induction ops generalizing page with
  | nil => exact hpage
  | cons op rest ih =>
      obtain ⟨hop, hrest⟩ := List.forall_mem_cons.1 hops
      exact ih (hpage.apply hop) hrest

theorem HoldsNull.of_componentOrNew {page : PageState} {id : String}
    (hnull : (page.componentOrNew id).HoldsNull) : page.HoldsNull id := by
  rw [componentOrNew] at hnull
  cases hstate : page.component? id with
  | none =>
      rw [hstate] at hnull
      rcases hnull with hvalue | hdata
      · cases hvalue
      · cases hdata
  | some state =>
      rw [hstate] at hnull
      exact ⟨state, hstate, hnull⟩

/-- A null that a change leaves in a component was there or was written. -/
theorem HoldsNull.of_apply {page : PageState} {op : StoreOp} {id : String}
    (hnull : (page.apply op).HoldsNull id) : page.HoldsNull id ∨ op.WritesNull id := by
  obtain ⟨state, hstate, hnull⟩ := hnull
  rcases component?_apply hstate with hold | ⟨initial, rfl, rfl⟩ | ⟨change, rfl, rfl⟩
  · exact .inl ⟨state, hold, hnull⟩
  · cases initial with
    | none => exact absurd hnull (by simp [ComponentState.HoldsNull, ComponentState.seed])
    | some initial =>
        rcases ComponentState.HoldsNull.of_merge hnull with hseed | hinitial
        · exact absurd hseed (by simp [ComponentState.HoldsNull, ComponentState.seed])
        · exact .inr ⟨rfl, initial, rfl, hinitial⟩
  · rcases ComponentState.HoldsNull.of_apply hnull with hold | hchange
    · exact .inl (HoldsNull.of_componentOrNew hold)
    · exact .inr ⟨rfl, hchange⟩

theorem HoldsNull.of_applyAll {page : PageState} {ops : List StoreOp} {id : String}
    (hnull : (page.applyAll ops).HoldsNull id) :
    page.HoldsNull id ∨ ∃ op ∈ ops, op.WritesNull id := by
  induction ops generalizing page with
  | nil => exact .inl hnull
  | cons op rest ih =>
      rcases ih hnull with hnull | ⟨later, hmem, hwrites⟩
      · rcases hnull.of_apply with hnull | hwrites
        · exact .inl hnull
        · exact .inr ⟨op, List.mem_cons_self, hwrites⟩
      · exact .inr ⟨later, List.mem_cons_of_mem op hmem, hwrites⟩

end PageState

/-- What an action changes is regular. -/
theorem Engine.regular_of_mem_effects {engine : Engine} {context : Context} {kind : ActionKind}
    {op : StoreOp} (hop : .store op ∈ engine.effects context kind) : op.Regular := by
  rcases store_mem_effects hop with ⟨id, change, rfl, -, -, hpatch⟩ | ⟨name, value, rfl, -⟩
  · cases change with
    | merge patch =>
        intro key _
        rw [hpatch patch rfl]
        rfl
    | _ => trivial
  · trivial

end LivePage
