import LivePage.Proofs.Expression.Names
import LivePage.Proofs.Store.Edits
import LivePage.Proofs.Store.Footprint

/-!
# Values as expressions see them

A component has a value from the moment it is written until it is written again or the
component is forgotten, whatever else happens to the page; an entry of the form stays until
it is written again.  What expressions see of the page are these values and entries, each
under its own name.
-/

namespace LivePage

namespace ComponentState

/-- The value that an edit sets. -/
def Edit.newValue? : Edit → Option Json
  | merge patch => patch.value
  | assign value _ => some value
  | field "value" value => some value
  | _ => none

theorem Edit.value_apply (edit : Edit) (state : ComponentState) :
    (edit.apply state).value = edit.newValue?.or state.value := by
  have hother {key : String} (hkey : key ≠ "value") (state : ComponentState) (value : Json) :
      (state.setField key value).value = state.value :=
    (agreeBut_setField state key value).value (Ne.symm hkey)
  cases edit with
  | merge patch => rfl
  | assign value named =>
      cases named with
      | none => rfl
      | some key =>
          rw [apply, newValue?, Option.some_or]
          by_cases hkey : key = "value"
          · rw [hkey]
            rfl
          · exact hother hkey _ value
  | filter | visibility => rfl
  | field key value =>
      rw [apply, newValue?.eq_def]
      split
      case h_3 heq =>
        obtain ⟨rfl, rfl⟩ := Edit.field.inj heq
        rfl
      all_goals simp_all

end ComponentState

namespace StoreOp

/-- The value that a change gives to a component. -/
def newValue? (id : String) (op : StoreOp) : Option Json :=
  (op.edit? id).bind ComponentState.Edit.newValue?

theorem newValue?_edit (id : String) (edit : ComponentState.Edit) :
    (StoreOp.edit id edit).newValue? id = edit.newValue? := by
  rw [newValue?, edit?, if_pos rfl, Option.bind_some]

/-- What a change writes to an entry of the form. -/
def newEntry? (name : String) : StoreOp → Option Json
  | setForm other value => if other = name then some value else none
  | mergeForm record => record.get? name
  | _ => none

/-- The change neither sets the value of a component nor forgets the component. -/
def LeavesValue (id : String) (op : StoreOp) : Prop :=
  op.newValue? id = none ∧ op ≠ .remove id

end StoreOp

namespace PageState

/-- A component is there and has a value. -/
def HasValue (page : PageState) (id : String) (value : Json) : Prop :=
  ∃ state, page.component? id = some state ∧ state.value = some value

theorem HasValue.componentOrNew {page : PageState} {id : String} {value : Json}
    (hvalue : page.HasValue id value) : (page.componentOrNew id).value = some value := by
  obtain ⟨state, hstate, hset⟩ := hvalue
  rw [PageState.componentOrNew, hstate]
  exact hset

/-- Whether or not a component is there, an edit that sets its value gives it that value. -/
theorem hasValue_edit {page : PageState} {id : String} {edit : ComponentState.Edit} {value : Json}
    (hvalue : edit.newValue?.or (page.componentOrNew id).value = some value) :
    (page.apply (.edit id edit)).HasValue id value := by
  refine ⟨edit.apply (page.componentOrNew id), ?_, by rw [edit.value_apply, hvalue]⟩
  rw [apply, component?_edit, if_pos rfl]

theorem hasValue_apply {op : StoreOp} {id : String} {value : Json}
    (hvalue : op.newValue? id = some value) (page : PageState) :
    (page.apply op).HasValue id value := by
  obtain ⟨edit, hedit, hnew⟩ := Option.bind_eq_some_iff.1 hvalue
  cases op with
  | edit other change =>
      rw [StoreOp.edit?] at hedit
      split at hedit
      · next heq =>
          obtain rfl := Option.some.inj hedit
          subst heq
          exact hasValue_edit (by rw [hnew, Option.some_or])
      · cases hedit
  | register | remove | setForm | mergeForm => cases hedit

/-- A component keeps its value as long as nobody sets it or forgets the component. -/
theorem HasValue.apply {page : PageState} {id : String} {value : Json}
    (hvalue : page.HasValue id value) {op : StoreOp} (hleaves : op.LeavesValue id) :
    (page.apply op).HasValue id value := by
  obtain ⟨hnew, hremove⟩ := hleaves
  have hkeeps {after : PageState} (hafter : after.component? id = page.component? id) :
      after.HasValue id value := by
    obtain ⟨state, hstate, hset⟩ := hvalue
    exact ⟨state, hafter.trans hstate, hset⟩
  cases op with
  | register other initial =>
      rw [PageState.apply, register.eq_def]
      split
      · exact hvalue
      · next hother =>
          apply hkeeps
          have hne : other ≠ id := by
            rintro rfl
            obtain ⟨state, hstate, -⟩ := hvalue
            rw [hother] at hstate
            cases hstate
          exact (Dict.get?_insert ..).trans (if_neg hne)
  | edit other change =>
      by_cases heq : other = id
      · subst heq
        apply hasValue_edit
        rw [StoreOp.newValue?_edit] at hnew
        rw [hnew, Option.none_or, hvalue.componentOrNew]
      · exact hkeeps ((page.component?_edit other id change).trans (if_neg heq))
  | remove other =>
      have hne : other ≠ id := fun heq => hremove (heq ▸ rfl)
      exact hkeeps ((Dict.get?_erase ..).trans (if_neg hne))
  | setForm | mergeForm => exact hkeeps rfl

theorem HasValue.applyAll {page : PageState} {id : String} {value : Json}
    (hvalue : page.HasValue id value) {ops : List StoreOp}
    (hleaves : ∀ op ∈ ops, op.LeavesValue id) : (page.applyAll ops).HasValue id value := by
  induction ops generalizing page with
  | nil => exact hvalue
  | cons op rest ih =>
      obtain ⟨hop, hrest⟩ := List.forall_mem_cons.1 hleaves
      exact ih (hvalue.apply hop) hrest

theorem get?_form_apply (page : PageState) (op : StoreOp) (name : String) :
    (page.apply op).form.get? name = (op.newEntry? name).or (page.form.get? name) := by
  cases op with
  | register other initial =>
      rw [apply, register.eq_def]
      split <;> rfl
  | edit | remove => rfl
  | setForm other value =>
      rw [apply, setForm, Dict.get?_insert, StoreOp.newEntry?]
      split <;> rfl
  | mergeForm record => exact Dict.get?_union ..

theorem get?_form_applyAll (page : PageState) {ops : List StoreOp} {name : String}
    (hleaves : ∀ op ∈ ops, op.newEntry? name = none) :
    (page.applyAll ops).form.get? name = page.form.get? name := by
  induction ops generalizing page with
  | nil => rfl
  | cons op rest ih =>
      obtain ⟨hop, hrest⟩ := List.forall_mem_cons.1 hleaves
      rw [applyAll, List.foldl_cons, ← applyAll, ih _ hrest, get?_form_apply, hop, Option.none_or]

/-- The history up to a change, the change, and what came after it. -/
theorem applyAll_append_cons (page : PageState) (before : List StoreOp) (op : StoreOp)
    (behind : List StoreOp) :
    page.applyAll (before ++ op :: behind) =
      ((page.applyAll before).apply op).applyAll behind := by
  rw [applyAll, List.foldl_append, List.foldl_cons]
  rfl

/-- Expressions see the value that a component was given last. -/
theorem lookup_component (page : PageState) (event : Event) {id : String}
    (hplain : Path.IsPlain id) (hne : id ≠ "") {before behind : List StoreOp} {op : StoreOp}
    {value : Json} (hvalue : op.newValue? id = some value)
    (hbehind : ∀ later ∈ behind, later.LeavesValue id) :
    ((page.applyAll (before ++ op :: behind)).snapshot event).lookup ("components." ++ id) =
      value := by
  obtain ⟨state, hstate, hset⟩ := (hasValue_apply hvalue (page.applyAll before)).applyAll hbehind
  rw [applyAll_append_cons]
  refine (Context.lookup_expression _ .components hplain hne).trans ?_
  rw [Context.table, snapshot, Dict.get?_mapValues, ← component?, hstate, Option.map_some, hset]
  rfl

/-- Expressions see what was written last to an entry of the form. -/
theorem lookup_form (page : PageState) (event : Event) {name : String}
    (hplain : Path.IsPlain name) (hne : name ≠ "") {before behind : List StoreOp} {op : StoreOp}
    {value : Json} (hvalue : op.newEntry? name = some value)
    (hbehind : ∀ later ∈ behind, later.newEntry? name = none) :
    ((page.applyAll (before ++ op :: behind)).snapshot event).lookup ("form." ++ name) =
      value := by
  rw [applyAll_append_cons]
  refine (Context.lookup_expression _ .form hplain hne).trans ?_
  rw [Context.table, snapshot, get?_form_applyAll _ hbehind, get?_form_apply, hvalue,
    Option.some_or]
  rfl

end PageState

end LivePage
