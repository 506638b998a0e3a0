import LivePage.Proofs.Dict
import LivePage.Run.Engine

/-!
# Footprints

What changes of a page leave alone.  An edit of a component writes the fields that
it names and no other ones, and the actions of a kind write to one component and to
one entry of the form, if at all.  So a list of changes made by actions leaves
everything that none of their kinds names as it was.
-/

namespace LivePage

namespace ComponentState

/-- Two states of a component that agree except on fields with some names. -/
structure AgreeBut (named : String → Prop) (before after : ComponentState) : Prop where
  value : ¬ named "value" → after.value = before.value
  loading : ¬ named "loading" → after.loading = before.loading
  visible : ¬ named "visible" → after.visible = before.visible
  data : ¬ named "data" → after.data = before.data
  error : ¬ named "error" → after.error = before.error
  filterParams : ¬ named "filterParams" → after.filterParams = before.filterParams
  extra : ∀ key, ¬ named key → after.extra.get? key = before.extra.get? key

variable {named : String → Prop} {before middle after : ComponentState}

theorem AgreeBut.refl (named : String → Prop) (state : ComponentState) :
    AgreeBut named state state :=
  ⟨fun _ => rfl, fun _ => rfl, fun _ => rfl, fun _ => rfl, fun _ => rfl, fun _ => rfl,
    fun _ _ => rfl⟩

theorem AgreeBut.trans (hfirst : AgreeBut named before middle)
    (hsecond : AgreeBut named middle after) : AgreeBut named before after where
  value := fun hname => (hsecond.value hname).trans (hfirst.value hname)
  loading := fun hname => (hsecond.loading hname).trans (hfirst.loading hname)
  visible := fun hname => (hsecond.visible hname).trans (hfirst.visible hname)
  data := fun hname => (hsecond.data hname).trans (hfirst.data hname)
  error := fun hname => (hsecond.error hname).trans (hfirst.error hname)
  filterParams := fun hname => (hsecond.filterParams hname).trans (hfirst.filterParams hname)
  extra := fun key hname => (hsecond.extra key hname).trans (hfirst.extra key hname)

theorem AgreeBut.mono {other : String → Prop} (hagree : AgreeBut named before after)
    (hnames : ∀ name, named name → other name) : AgreeBut other before after where
  value := fun hname => hagree.value fun h => hname (hnames _ h)
  loading := fun hname => hagree.loading fun h => hname (hnames _ h)
  visible := fun hname => hagree.visible fun h => hname (hnames _ h)
  data := fun hname => hagree.data fun h => hname (hnames _ h)
  error := fun hname => hagree.error fun h => hname (hnames _ h)
  filterParams := fun hname => hagree.filterParams fun h => hname (hnames _ h)
  extra := fun key hname => hagree.extra key fun h => hname (hnames _ h)

/-- The names of the fields that a patch gives. -/
def names (patch : ComponentState) : List String :=
  (patch.builtinMembers ++ patch.extra.entries).map Prod.fst

theorem mem_keys_member {key name : String} {encode : α → Json} {field : Option α} :
    name ∈ (Json.member key encode field).map Prod.fst ↔ name = key ∧ field ≠ none := by
  cases field <;> simp [Json.member]

/-- A patch writes the fields that it gives. -/
theorem agreeBut_merge (state patch : ComponentState) :
    AgreeBut (· ∈ patch.names) state (state.merge patch) := by
  have hnames (name : String) (hname : name ∉ patch.names) :
      name ∉ patch.builtinMembers.map Prod.fst ∧ name ∉ patch.extra.entries.map Prod.fst := by
    rwa [names, List.map_append, List.mem_append, not_or] at hname
  have hor {β : Type} {field other : Option β} (hfield : ¬ field ≠ none) :
      field.or other = other := by
    rw [not_not.1 hfield, Option.none_or]
  constructor
  case extra =>
    intro key hname
    have hpatch : patch.extra.get? key = none := Dict.find?_eq_none_iff.2 (hnames key hname).2
    rw [merge, Dict.get?_union, hpatch, Option.none_or]
  all_goals
    intro hname
    refine hor fun hsome => (hnames _ hname).1 ?_
    simp [builtinMembers, mem_keys_member, hsome]

/-- Writing a value under a key changes the field with that name alone. -/
theorem agreeBut_setField (state : ComponentState) (key : String) (value : Json) :
    AgreeBut (· = key) state (state.setField key value) := by
  rw [setField.eq_def]
  split
  · exact { AgreeBut.refl _ state with value := fun hname => absurd rfl hname }
  · exact { AgreeBut.refl _ state with data := fun hname => absurd rfl hname }
  · exact { AgreeBut.refl _ state with loading := fun hname => absurd rfl hname }
  · exact { AgreeBut.refl _ state with visible := fun hname => absurd rfl hname }
  · exact { AgreeBut.refl _ state with error := fun hname => absurd rfl hname }
  · split
    · exact { AgreeBut.refl _ state with filterParams := fun hname => absurd rfl hname }
    · exact { AgreeBut.refl _ state with filterParams := fun hname => absurd rfl hname }
    · exact .refl _ state
  · exact { AgreeBut.refl (· = key) state with
      extra := fun name hname => (Dict.get?_insert ..).trans (if_neg (Ne.symm hname)) }

/-- The names of the fields that an edit writes. -/
def Edit.names : Edit → List String
  | merge patch => patch.names
  | assign _ named => "value" :: named.toList
  | filter .. => ["filterParams"]
  | visibility _ => ["visible"]
  | field key _ => [key]

/-- An edit changes the fields that it names. -/
theorem agreeBut_apply (edit : Edit) (state : ComponentState) :
    AgreeBut (· ∈ edit.names) state (edit.apply state) := by
  cases edit with
  | merge patch => exact agreeBut_merge state patch
  | assign value named =>
      have hvalue : AgreeBut (· ∈ (Edit.assign value named).names) state
          { state with value := some value } :=
        { AgreeBut.refl _ _ with value := fun hname => absurd List.mem_cons_self hname }
      cases named with
      | none => exact hvalue
      | some key =>
          refine hvalue.trans ((agreeBut_setField _ key value).mono fun name hname => ?_)
          rw [hname]
          exact List.mem_cons_of_mem _ (List.mem_singleton.2 rfl)
  | filter name value =>
      exact { AgreeBut.refl _ _ with
        filterParams := fun hname => absurd (List.mem_singleton.2 rfl) hname }
  | visibility change =>
      exact { AgreeBut.refl _ _ with
        visible := fun hname => absurd (List.mem_singleton.2 rfl) hname }
  | field key value =>
      exact (agreeBut_setField state key value).mono fun name hname => List.mem_singleton.2 hname

end ComponentState

namespace ActionKind

/-- The component that actions of a kind write to. -/
def target? : ActionKind → Option String
  | setValue component .. => some component
  | filterData component .. => some component
  | setVisibility component _ => some component
  | setLoading component _ => some component
  | _ => none

/-- The names of the fields that actions of a kind write in their component. -/
def fieldNames : ActionKind → List String
  | setValue _ _ field => "value" :: field.toList
  | filterData .. => ["filterParams"]
  | setVisibility .. => ["visible"]
  | setLoading .. => ["loading"]
  | _ => []

/-- The entry of the form that actions of a kind write. -/
def formName? : ActionKind → Option String
  | setValue _ _ field => field
  | _ => none

/-- Actions of the kind write a field of a component. -/
def Owns (kind : ActionKind) (id name : String) : Prop :=
  kind.target? = some id ∧ name ∈ kind.fieldNames

end ActionKind

/-- What actions of some kinds leave alone between two states of a page. -/
structure PageState.Framed (kinds : List ActionKind) (before after : PageState) : Prop where
  /-- A component that no action writes to is as it was, or still not there. -/
  untargeted : ∀ id, (∀ kind ∈ kinds, kind.target? ≠ some id) →
    after.component? id = before.component? id
  /-- Of every other one only the fields differ that the actions on it write. -/
  targeted : ∀ id, (before.componentOrNew id).AgreeBut
    (fun name => ∃ kind ∈ kinds, kind.Owns id name) (after.componentOrNew id)
  /-- No component is gone. -/
  kept : ∀ id, (before.component? id).isSome → (after.component? id).isSome
  form : ∀ name, (∀ kind ∈ kinds, kind.formName? ≠ some name) →
    after.form.get? name = before.form.get? name
  route : after.route = before.route
  user : after.user = before.user

namespace PageState

variable {kinds : List ActionKind} {before middle after : PageState}

theorem Framed.refl (kinds : List ActionKind) (page : PageState) : Framed kinds page page :=
  ⟨fun _ _ => rfl, fun _ => .refl _ _, fun _ h => h, fun _ _ => rfl, rfl, rfl⟩

theorem Framed.trans (hfirst : Framed kinds before middle) (hsecond : Framed kinds middle after) :
    Framed kinds before after where
  untargeted := fun id hid => (hsecond.untargeted id hid).trans (hfirst.untargeted id hid)
  targeted := fun id => (hfirst.targeted id).trans (hsecond.targeted id)
  kept := fun id hid => hsecond.kept id (hfirst.kept id hid)
  form := fun name hname => (hsecond.form name hname).trans (hfirst.form name hname)
  route := hsecond.route.trans hfirst.route
  user := hsecond.user.trans hfirst.user

/-- Changes that each leave alone what some kinds do not write leave it alone
together. -/
theorem framed_applyAll {ops : List StoreOp}
    (hops : ∀ op ∈ ops, ∀ page : PageState, page.Framed kinds (page.apply op))
    (page : PageState) : page.Framed kinds (page.applyAll ops) := by
  induction ops generalizing page with
  | nil => exact Framed.refl kinds page
  | cons op rest ih =>
      obtain ⟨hop, hrest⟩ := List.forall_mem_cons.1 hops
      exact (hop page).trans (ih hrest (page.apply op))

theorem component?_edit (page : PageState) (id other : String) (change : ComponentState.Edit) :
    (page.edit id change).component? other =
      if id = other then some (change.apply (page.componentOrNew id))
      else page.component? other :=
  Dict.get?_insert ..

/-- The edit of a component by actions of a kind that writes its fields. -/
theorem framed_edit {id : String} {edit : ComponentState.Edit} {kind : ActionKind}
    (hkind : kind ∈ kinds) (htarget : kind.target? = some id)
    (hnames : edit.names = kind.fieldNames) (page : PageState) :
    page.Framed kinds (page.edit id edit) := by
  have hget (other : String) := page.component?_edit id other edit
  constructor
  case untargeted =>
    intro other hother
    rw [hget, if_neg]
    rintro rfl
    exact hother kind hkind htarget
  case targeted =>
    intro other
    by_cases heq : id = other
    · subst heq
      rw [componentOrNew.eq_def (page.edit id edit), hget, if_pos rfl]
      exact (ComponentState.agreeBut_apply edit _).mono fun name hname =>
        ⟨kind, hkind, htarget, hnames ▸ hname⟩
    · rw [componentOrNew.eq_def (page.edit id edit), hget, if_neg heq]
      exact .refl _ _
  case kept =>
    intro other hother
    rw [hget]
    split
    · rfl
    · exact hother
  case form => exact fun _ _ => rfl
  all_goals rfl

theorem framed_setForm {name : String} {kind : ActionKind} (hkind : kind ∈ kinds)
    (hname : kind.formName? = some name) (value : Json) (page : PageState) :
    page.Framed kinds (page.setForm name value) :=
  { Framed.refl kinds page with
    form := fun other hother => by
      rw [setForm, Dict.get?_insert, if_neg]
      rintro rfl
      exact hother kind hkind hname }

end PageState

namespace Engine

variable {engine : Engine} {context : Context} {kind : ActionKind} {op : StoreOp}

/-- What an action changes at once: fields of its component, under the names that its
kind writes, or an entry of the form.  A patch that it merges has no further fields. -/
theorem store_mem_effects (hop : .store op ∈ engine.effects context kind) :
    (∃ id change, op = .edit id change ∧ kind.target? = some id ∧
        change.names = kind.fieldNames ∧ ∀ patch, change = .merge patch → patch.extra = ∅) ∨
      ∃ name value, op = .setForm name value ∧ kind.formName? = some name := by
  cases kind with
  | setValue component value field =>
      rw [effects] at hop
      cases field with
      | none =>
          obtain rfl := Effect.store.inj (List.mem_singleton.1 hop)
          exact .inl ⟨component, _, rfl, rfl, rfl, fun _ hpatch => by cases hpatch⟩
      | some name =>
          rcases List.mem_cons.1 hop with hedit | hform
          · obtain rfl := Effect.store.inj hedit
            exact .inl ⟨component, _, rfl, rfl, rfl, fun _ hpatch => by cases hpatch⟩
          · obtain rfl := Effect.store.inj (List.mem_singleton.1 hform)
            exact .inr ⟨name, _, rfl, rfl⟩
  | filterData component field value =>
      rcases List.mem_cons.1 hop with hedit | hrefresh
      · obtain rfl := Effect.store.inj hedit
        exact .inl ⟨component, _, rfl, rfl, rfl, fun _ hpatch => by cases hpatch⟩
      · cases List.mem_singleton.1 hrefresh
  | setVisibility component change =>
      obtain rfl := Effect.store.inj (List.mem_singleton.1 hop)
      exact .inl ⟨component, _, rfl, rfl, rfl, fun _ hpatch => by cases hpatch⟩
  | setLoading component flag =>
      obtain rfl := Effect.store.inj (List.mem_singleton.1 hop)
      refine .inl ⟨component, _, rfl, rfl, rfl, fun patch hpatch => ?_⟩
      rw [← ComponentState.Edit.merge.inj hpatch]
      rfl
  | callApi | runActions | unknown => exact absurd hop List.not_mem_nil
  | navigate | showToast | showModal | closeModal | refresh =>
      cases List.mem_singleton.1 hop

/-- What an action does to a page stays within what its kind writes. -/
theorem framed_of_mem_effects {kinds : List ActionKind} (hkind : kind ∈ kinds)
    (hop : .store op ∈ engine.effects context kind) (page : PageState) :
    page.Framed kinds (page.apply op) := by
  rcases store_mem_effects hop with ⟨id, change, rfl, htarget, hnames, -⟩ |
    ⟨name, value, rfl, hname⟩
  · exact PageState.framed_edit hkind htarget hnames page
  · exact PageState.framed_setForm hkind hname value page

end Engine

end LivePage
