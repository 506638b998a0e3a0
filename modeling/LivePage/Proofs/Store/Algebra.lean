import LivePage.Proofs.Store.Footprint
import LivePage.Proofs.Store.Merge

/-!
# The algebra of component states

Changes of components, each with the id of the component that it names: registering,
merging a patch, rewriting by any function, and forgetting.  A change acts on the state
of its own component and on nothing else, so a history of changes is as many histories
as it names components, and how these are shuffled into one does not matter.
-/

namespace LivePage

/-- A change of one component. -/
inductive ComponentChange where
  | register (initial : Option ComponentState)
  /-- Merges a patch. -/
  | update (patch : ComponentState)
  /-- Rewrites the state in one go. -/
  | rewrite (f : ComponentState → ComponentState)
  | remove

/-- What a change makes of the state of its component, which may be absent. -/
def ComponentChange.act : ComponentChange → Option ComponentState → Option ComponentState
  | register initial, none => some (initial.elim .seed ComponentState.seed.merge)
  | register _, some state => some state
  | update patch, found => some ((found.getD {}).merge patch)
  | rewrite f, found => some (f (found.getD {}))
  | remove, _ => none

namespace PageState

/-- Rewrites the state of a component, which is created if it is not there. -/
def rewrite (page : PageState) (id : String) (f : ComponentState → ComponentState) : PageState :=
  { page with components := page.components.insert id (f (page.componentOrNew id)) }

/-- The page after a change of the component with an id. -/
def change (page : PageState) (id : String) : ComponentChange → PageState
  | .register initial => page.register id initial
  | .update patch => page.edit id (.merge patch)
  | .rewrite f => page.rewrite id f
  | .remove => page.remove id

/-- The page after some changes, each of the component that it names. -/
def changeAll (page : PageState) (changes : List (String × ComponentChange)) : PageState :=
  changes.foldl (fun page entry => page.change entry.1 entry.2) page

/-- A component that is there is not registered again. -/
theorem register_of_component? {page : PageState} {id : String} {state : ComponentState}
    (hstate : page.component? id = some state) (initial : Option ComponentState) :
    page.register id initial = page := by
  rw [register.eq_def, hstate]

/-- A change acts on the state of the component that it names and on no other one. -/
theorem component?_change (page : PageState) (id other : String) (change : ComponentChange) :
    (page.change id change).component? other =
      if id = other then change.act (page.component? id) else page.component? other := by
  cases change with
  | register initial =>
      rw [PageState.change]
      cases hfound : page.component? id with
      | some state =>
          rw [register_of_component? hfound, ComponentChange.act, ← hfound]
          split
          · next heq => rw [heq]
          · rfl
      | none =>
          rw [register.eq_def, hfound]
          cases initial <;> exact Dict.get?_insert ..
  | update patch => exact page.component?_edit id other (.merge patch)
  | rewrite f => exact Dict.get?_insert ..
  | remove => exact Dict.get?_erase ..

/-- A change leaves all but the components as it was. -/
theorem change_eq (page : PageState) (id : String) (change : ComponentChange) :
    page.change id change = { page with components := (page.change id change).components } := by
  cases change with
  | register initial =>
      rw [PageState.change, register.eq_def]
      split <;> rfl
  | update | rewrite | remove => rfl

theorem changeAll_eq (page : PageState) (changes : List (String × ComponentChange)) :
    page.changeAll changes =
      { page with components := (page.changeAll changes).components } := by
  induction changes generalizing page with
  | nil => rfl
  | cons entry rest ih =>
      rw [changeAll, List.foldl_cons, ← changeAll, ih, change_eq page]

end PageState

namespace ComponentChange

/-- The changes of a history that name a component, in order. -/
def naming (id : String) (changes : List (String × ComponentChange)) : List ComponentChange :=
  changes.filterMap fun entry => if entry.1 = id then some entry.2 else none

theorem naming_cons (id other : String) (change : ComponentChange)
    (rest : List (String × ComponentChange)) :
    naming id ((other, change) :: rest) =
      if other = id then change :: naming id rest else naming id rest := by
  rw [naming, List.filterMap_cons]
  by_cases heq : other = id
  · rw [if_pos heq, if_pos heq]
    rfl
  · rw [if_neg heq, if_neg heq]
    rfl

end ComponentChange

namespace PageState

/-- What a history leaves of a component is what the changes that name it make of its
state, one after the other. -/
theorem component?_changeAll (page : PageState) (changes : List (String × ComponentChange))
    (id : String) :
    (page.changeAll changes).component? id =
      (ComponentChange.naming id changes).foldl (fun found change => change.act found)
        (page.component? id) := by
  induction changes generalizing page with
  | nil => rfl
  | cons entry rest ih =>
      obtain ⟨other, change⟩ := entry
      rw [changeAll, List.foldl_cons, ← changeAll, ih, component?_change,
        ComponentChange.naming_cons]
      split
      · next heq => rw [List.foldl_cons, heq]
      · rfl

/-- Histories that do the same to every single component lead to the same page. -/
theorem changeAll_congr (page : PageState) {changes others : List (String × ComponentChange)}
    (hact : ∀ id,
      (ComponentChange.naming id changes).foldl (fun found change => change.act found)
          (page.component? id) =
        (ComponentChange.naming id others).foldl (fun found change => change.act found)
          (page.component? id)) :
    page.changeAll changes = page.changeAll others := by
  have hcomponents : (page.changeAll changes).components = (page.changeAll others).components := by
    apply Dict.ext_get?
    intro id
    change (page.changeAll changes).component? id = (page.changeAll others).component? id
    rw [component?_changeAll, component?_changeAll, hact]
  rw [changeAll_eq page changes, changeAll_eq page others, hcomponents]

/-- Two updates of a component behind each other are one, with the patches merged. -/
theorem update_update (page : PageState) (id : String) (first second : ComponentState) :
    (page.change id (.update first)).change id (.update second) =
      page.change id (.update (first.merge second)) := by
  change page.changeAll [(id, .update first), (id, .update second)] =
    page.changeAll [(id, .update (first.merge second))]
  refine page.changeAll_congr fun other => ?_
  simp only [ComponentChange.naming_cons]
  split
  · exact congrArg some (ComponentState.merge_assoc _ first second)
  · rfl

/-- An update leaves what its patch does not hold. -/
theorem part?_update {patch : ComponentState} {part : ComponentState.Part}
    (hpatch : patch.part? part = none) (page : PageState) (id : String) :
    ((page.change id (.update patch)).componentOrNew id).part? part =
      (page.componentOrNew id).part? part := by
  rw [componentOrNew, component?_change, if_pos rfl]
  change (ComponentState.merge _ patch).part? part = _
  rw [ComponentState.part?_merge, hpatch, Option.none_or, componentOrNew]

/-- The laws of the store.  The state of a component depends only on the changes that name
it, so changes of different components can be put in any order; registering a component
that is there changes nothing, updates behind each other are one, and an update made
twice is made once.  Patches are a monoid under merging in which every element is
idempotent, those that hold no part in common commute, and no update loses a part that
its patch does not hold.  The edits of a page are rewritings. -/
theorem store_algebra :
    (∀ (page other : PageState) (changes others : List (String × ComponentChange)) (id : String),
      page.component? id = other.component? id →
        ComponentChange.naming id changes = ComponentChange.naming id others →
          (page.changeAll changes).component? id = (other.changeAll others).component? id) ∧
      (∀ (page : PageState) (changes others : List (String × ComponentChange)),
        (∀ id, ComponentChange.naming id changes = ComponentChange.naming id others) →
          page.changeAll changes = page.changeAll others) ∧
      (∀ (page : PageState) (id : String) (initial : Option ComponentState),
        (page.component? id).isSome → page.change id (.register initial) = page) ∧
      (∀ (page : PageState) (id : String) (first second : ComponentState),
        (page.change id (.update first)).change id (.update second) =
          page.change id (.update (first.merge second))) ∧
      (∀ (page : PageState) (id : String) (patch : ComponentState),
        (page.change id (.update patch)).change id (.update patch) =
          page.change id (.update patch)) ∧
      (∀ first second third : ComponentState,
        (first.merge second).merge third = first.merge (second.merge third)) ∧
      (∀ state : ComponentState,
        state.merge {} = state ∧ ComponentState.merge {} state = state ∧
          state.merge state = state) ∧
      (∀ state other : ComponentState, state.Disjoint other →
        state.merge other = other.merge state) ∧
      (∀ (page : PageState) (id : String) (patch : ComponentState) (part : ComponentState.Part),
        patch.part? part = none →
          ((page.change id (.update patch)).componentOrNew id).part? part =
            (page.componentOrNew id).part? part) ∧
      ∀ (page : PageState) (id : String) (edit : ComponentState.Edit),
        page.apply (.edit id edit) = page.change id (.rewrite edit.apply) := by
  refine ⟨fun page other changes others id hfound hnaming => ?_,
    fun page changes others hnaming => page.changeAll_congr fun id => by rw [hnaming],
    fun page id initial hthere => ?_, update_update, fun page id patch => ?_,
    ComponentState.merge_assoc,
    fun state => ⟨state.merge_empty, state.empty_merge, state.merge_self⟩,
    fun _ _ => ComponentState.merge_comm_of_disjoint,
    fun page id _ _ hpatch => part?_update hpatch page id, fun _ _ _ => rfl⟩
  · rw [component?_changeAll, component?_changeAll, hfound, hnaming]
  · obtain ⟨state, hstate⟩ := Option.isSome_iff_exists.1 hthere
    exact register_of_component? hstate initial
  · rw [update_update, ComponentState.merge_self]

/-- Two components that are changed in turn, and the same changes one component after
the other.  While the first one is there, registering it does nothing; once it is
removed, it does. -/
theorem store_algebra_of_turns :
    let page : PageState := { components := Dict.ofList [("a", .withLoading true)] }
    let again : ComponentChange := .register (some (.withValue .null))
    let hidden : ComponentChange := .rewrite fun state => { state with visible := some false }
    page.change "a" again = page ∧
      page.changeAll [("a", .remove), ("b", .update (.withLoading true)), ("a", again),
          ("b", hidden)] =
        page.changeAll [("b", .update (.withLoading true)), ("b", hidden), ("a", .remove),
          ("a", again)] := by
  intro page again hidden
  obtain ⟨-, hreorder, hregister, -⟩ := store_algebra
  refine ⟨hregister page "a" _ rfl, hreorder page _ _ fun id => ?_⟩
  simp only [ComponentChange.naming_cons]
  by_cases ha : "a" = id
  · simp [← ha]
  · simp [ha]

end PageState

end LivePage
