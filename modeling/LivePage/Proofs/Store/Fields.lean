import LivePage.Proofs.Json.Faithful
import LivePage.Proofs.Store.Merge

/-!
# Writing fields

A key names one part of a component state, and writing under it acts on that part alone: the part
takes the value in its own form, is cleared by null, or keeps what it holds if the value has no
form there.  All laws of writing are laws of that one part.  A document with one member, read as a
patch, holds the same part in the same form, so merging it is writing the member.
-/

namespace LivePage

namespace Json.Fields

/-- The only member of a document is found under its own key, unless it is null. -/
theorem optional_singleton {α : Type} (key name : String) (value : Json) (decode : Decoder α) :
    optional [(key, value)] name decode =
      if key = name ∧ value.isNull = false then (decode value).map some else some none := by
  rw [optional, get?, Dict.find?, Dict.find?]
  by_cases hkey : key = name
  · rw [if_pos hkey]
    cases value <;> simp [hkey, isNull]
  · simp [hkey]

end Json.Fields

namespace ComponentState

/-- The part that a key names. -/
def Part.ofKey : String → Part
  | "value" => .value
  | "loading" => .loading
  | "visible" => .visible
  | "data" => .data
  | "error" => .error
  | "filterParams" => .filterParams
  | key => .further key

/-- Writing the value under the key is ignored: filter parameters are an object or null. -/
def Ignores (key : String) (value : Json) : Prop :=
  key = "filterParams" ∧ value ≠ .null ∧ ∀ members, value ≠ .obj members

/-- What the part that a key names holds after a value is written under the key; nothing if the
value is ignored. -/
def taken (key : String) (value : Json) : Option (Option Json) :=
  match key with
  | "value" | "data" => some (some value)
  | "loading" | "visible" => some ((flag value).map .bool)
  | "error" => some ((errorText value).map .str)
  | "filterParams" =>
      match value with
      | .obj members => some (some (.ofMembers members))
      | .null => some none
      | _ => none
  | _ => some (some value)

/-- No two keys name one part. -/
theorem Part.ofKey_injective : Function.Injective Part.ofKey := by
  intro key other heq
  unfold ofKey at heq
  split at heq <;> split at heq <;> simp_all

theorem Part.ofKey_eq_further_iff {key other : String} :
    Part.ofKey key = .further other ↔ key = other ∧ key ∉ builtinNames := by
  unfold ofKey
  split <;> simp_all [builtinNames]

theorem taken_of_not_mem {key : String} (hkey : key ∉ builtinNames) (value : Json) :
    taken key value = some (some value) := by
  unfold taken
  split <;> simp_all [builtinNames]

/-- Writing under a key acts on the part that the key names. -/
theorem part?_setField (state : ComponentState) (key : String) (value : Json) (part : Part) :
    (state.setField key value).part? part =
      if Part.ofKey key = part then (taken key value).getD (state.part? part)
      else state.part? part := by
  unfold setField
  split
  case h_6 =>
    unfold taken
    cases value <;> cases part <;> simp [part?, Part.ofKey, Json.ofMembers]
  case h_7 hvalue hdata hloading hvisible herror hparams =>
    have hkey : key ∉ builtinNames := by
      simp only [builtinNames, List.mem_cons, List.not_mem_nil, or_false, not_or]
      exact ⟨hvalue, hloading, hvisible, hdata, herror, hparams⟩
    rw [Part.ofKey_eq_further_iff.2 ⟨rfl, hkey⟩, taken_of_not_mem hkey, Option.getD_some]
    cases part with
    | further other => simp [part?, Dict.get?_insert]
    | _ => simp [part?]
  all_goals cases part <;> simp [part?, Part.ofKey, taken]

/-- A value that is not null clears nothing. -/
theorem taken_ne_cleared {key : String} {value : Json}
    (hnull : key ∈ builtinNames → value ≠ .null) : taken key value ≠ some none := by
  intro htaken
  by_cases hkey : key ∈ builtinNames
  · have hpresent := hnull hkey
    simp only [builtinNames, List.mem_cons, List.not_mem_nil, or_false] at hkey
    rcases hkey with rfl | rfl | rfl | rfl | rfl | rfl <;> cases value <;>
      simp [taken, flag, errorText, Json.isNull] at htaken hpresent
  · rw [taken_of_not_mem hkey] at htaken
    cases htaken

/-! ## Documents with one member -/

/-- The value and the data take any document as it is. -/
theorem taken_document {name : String} (hname : name = "value" ∨ name = "data") {value held : Json}
    (hheld : Json.document? value = some held) : taken name value = some (some held) := by
  obtain rfl := Option.some.inj hheld
  rcases hname with rfl | rfl <;> rfl

/-- A flag takes a truth value as it is. -/
theorem taken_flag {name : String} (hname : name = "loading" ∨ name = "visible") {value : Json}
    {held : Bool} (hheld : Json.bool? value = some held) :
    taken name value = some (some (.bool held)) := by
  cases value with
  | bool value =>
      obtain rfl := Option.some.inj hheld
      rcases hname with rfl | rfl <;> rfl
  | _ => cases hheld

/-- An error takes a text as it is. -/
theorem taken_text {value : Json} {held : String} (hheld : Json.text? value = some held) :
    taken "error" value = some (some (.str held)) := by
  cases value with
  | str value =>
      obtain rfl := Option.some.inj hheld
      rfl
  | _ => cases hheld

/-- Filter parameters take an object as it is. -/
theorem taken_params {value : Json} {held : Dict Json}
    (hheld : Json.dict? Json.document? value = some held) :
    taken "filterParams" value = some (some (.ofDict held)) := by
  cases value with
  | obj members =>
      rw [Json.dict?, Json.eachMember?_document] at hheld
      obtain rfl := Option.some.inj hheld
      rfl
  | _ => cases hheld

/-- The only member of a document gives the field with its name what writing it gives. -/
theorem map_of_optional {α : Type} {key name : String} {value : Json} {decode : Json.Decoder α}
    {field : Option α} (encode : α → Json)
    (hread : Json.Fields.optional [(key, value)] name decode = some field)
    (hnull : key = name → value ≠ .null)
    (htaken : ∀ a, decode value = some a → taken name value = some (some (encode a))) :
    field.map encode = if key = name then (taken key value).getD none else none := by
  rw [Json.Fields.optional_singleton] at hread
  by_cases hkey : key = name
  · subst hkey
    have hpresent : value.isNull = false := by
      cases value with
      | null => exact absurd rfl (hnull rfl)
      | _ => rfl
    rw [if_pos ⟨rfl, hpresent⟩] at hread
    obtain ⟨a, hdecode, rfl⟩ := Option.map_eq_some_iff.1 hread
    rw [htaken a hdecode, if_pos rfl]
    rfl
  · rw [if_neg fun h => hkey h.1] at hread
    rw [← Option.some.inj hread, if_neg hkey]
    rfl

/-- A document with one member, read as a patch, holds what writing the member gives in the part
that its key names, and nothing else. -/
theorem part?_of_decode? {key : String} {value : Json} {patch : ComponentState}
    (hdecode : decode? (.obj [(key, value)]) = some patch)
    (hnull : key ∈ builtinNames → value ≠ .null) (part : Part) :
    patch.part? part = if Part.ofKey key = part then (taken key value).getD none else none := by
  simp only [decode?, Option.bind_eq_bind, Option.bind_eq_some_iff, Option.pure_def,
    Option.some.injEq] at hdecode
  obtain ⟨fields, hfields, _, hvalue, _, hloading, _, hvisible, _, hdata, _, herror, _, hparams,
    rfl⟩ := hdecode
  obtain rfl : fields = [(key, value)] := by
    rw [Json.members?] at hfields
    split at hfields
    · cases hfields
    · exact (Option.some.inj hfields).symm
  have hheld {α : Type} (name : String) (hmem : name ∈ builtinNames) {decode : Json.Decoder α}
      {field : Option α} (encode : α → Json)
      (hread : Json.Fields.optional [(key, value)] name decode = some field)
      (htaken : ∀ a, decode value = some a → taken name value = some (some (encode a))) :
      field.map encode =
        if Part.ofKey key = Part.ofKey name then (taken key value).getD none else none :=
    (map_of_optional encode hread (fun heq => hnull (heq ▸ hmem)) htaken).trans
      (if_congr Part.ofKey_injective.eq_iff.symm rfl rfl)
  cases part with
  | value =>
      have hfield := hheld "value" (by decide) id hvalue fun _ => taken_document (.inl rfl)
      rwa [Option.map_id] at hfield
  | data =>
      have hfield := hheld "data" (by decide) id hdata fun _ => taken_document (.inr rfl)
      rwa [Option.map_id] at hfield
  | loading => exact hheld "loading" (by decide) .bool hloading fun _ => taken_flag (.inl rfl)
  | visible => exact hheld "visible" (by decide) .bool hvisible fun _ => taken_flag (.inr rfl)
  | error => exact hheld "error" (by decide) .str herror fun _ => taken_text
  | filterParams => exact hheld "filterParams" (by decide) .ofDict hparams fun _ => taken_params
  | further other =>
      change (Dict.filterKeys _ _).get? other = _
      rw [Dict.get?_filterKeys, Dict.get?_ofList_cons, Dict.get?_ofList_nil, Option.none_or]
      by_cases hkey : key = other
      · subst hkey
        by_cases hbuiltin : key ∈ builtinNames
        · rw [if_neg (by simp [hbuiltin]),
            if_neg fun h => (Part.ofKey_eq_further_iff.1 h).2 hbuiltin]
        · rw [if_pos (by simp [hbuiltin]), if_pos rfl, taken_of_not_mem hbuiltin,
            if_pos (Part.ofKey_eq_further_iff.2 ⟨rfl, hbuiltin⟩)]
          rfl
      · rw [if_neg hkey, if_neg fun h => hkey (Part.ofKey_eq_further_iff.1 h).1, ite_self]

/-- Merging a document with one member is writing the member. -/
theorem merge_of_decode? {key : String} {value : Json} {patch : ComponentState}
    (hdecode : decode? (.obj [(key, value)]) = some patch)
    (hnull : key ∈ builtinNames → value ≠ .null) (state : ComponentState) :
    state.merge patch = state.setField key value := by
  apply ext_part?
  intro part
  rw [part?_merge, part?_of_decode? hdecode hnull, part?_setField]
  split
  · cases htaken : taken key value with
    | none => rfl
    | some held =>
        cases held with
        | none => exact absurd htaken (taken_ne_cleared hnull)
        | some held => rfl
  · rfl

/-! ## Laws of writing -/

/-- Writing one field after another does not depend on their order. -/
theorem setField_comm (state : ComponentState) {key other : String} (hne : key ≠ other)
    (value second : Json) :
    (state.setField key value).setField other second =
      (state.setField other second).setField key value := by
  have hparts : Part.ofKey key ≠ Part.ofKey other := mt (Part.ofKey_injective ·) hne
  apply ext_part?
  intro part
  simp only [part?_setField]
  by_cases hkey : Part.ofKey key = part
  · subst hkey
    simp [hparts.symm]
  · simp [hkey]

theorem taken_eq_none_iff {key : String} {value : Json} :
    taken key value = none ↔ Ignores key value := by
  unfold taken Ignores
  split
  case h_6 => cases value <;> simp
  case h_7 hparams => exact ⟨nofun, fun hignores => absurd hignores.1 hparams⟩
  all_goals simp

/-- A value that is ignored leaves the state as it was. -/
theorem Ignores.setField_eq {key : String} {value : Json} (hignores : Ignores key value)
    (state : ComponentState) : state.setField key value = state := by
  apply ext_part?
  intro part
  rw [part?_setField, taken_eq_none_iff.2 hignores, Option.getD_none, ite_self]

/-- Of two values written under one key the second one counts, unless it is ignored. -/
theorem setField_setField {key : String} {second : Json} (hcounts : ¬Ignores key second)
    (state : ComponentState) (first : Json) :
    (state.setField key first).setField key second = state.setField key second := by
  obtain ⟨held, hheld⟩ := Option.ne_none_iff_exists'.1 (mt taken_eq_none_iff.1 hcounts)
  apply ext_part?
  intro part
  simp only [part?_setField, hheld, Option.getD_some]
  by_cases hkey : Part.ofKey key = part
  · rw [if_pos hkey, if_pos hkey]
  · rw [if_neg hkey, if_neg hkey, if_neg hkey]

/-- The two ways to write a field agree.  Merging a document with one member, read as a patch, is
writing the member under its key, unless the key is a built-in one and the value null.  Writing
under a key changes no part of the state but the one that the key names, writing under two keys
can be done in any order, and of two values written under one key only the second one counts; but
filter parameters that are neither an object nor null are ignored. -/
theorem writes_agree :
    (∀ (state : ComponentState) (key : String) (value : Json) (patch : ComponentState),
      decode? (.obj [(key, value)]) = some patch → (key ∈ builtinNames → value ≠ .null) →
        state.merge patch = state.setField key value) ∧
      (∀ (state : ComponentState) (key : String) (value : Json) (part : Part),
        part ≠ Part.ofKey key → (state.setField key value).part? part = state.part? part) ∧
      (∀ (state : ComponentState) (key other : String) (value second : Json), key ≠ other →
        (state.setField key value).setField other second =
          (state.setField other second).setField key value) ∧
      (∀ (state : ComponentState) (key : String) (first second : Json), ¬Ignores key second →
        (state.setField key first).setField key second = state.setField key second) ∧
      ∀ (state : ComponentState) (key : String) (value : Json), Ignores key value →
        state.setField key value = state := by
  refine ⟨fun state _ _ _ hdecode hnull => merge_of_decode? hdecode hnull state,
    fun state key value part hpart => ?_, fun state _ _ value second hne =>
    setField_comm state hne value second, fun state _ first _ hcounts =>
    setField_setField hcounts state first, fun state _ _ hignores => hignores.setField_eq state⟩
  rw [part?_setField, if_neg hpart.symm]

/-- A table with a filter: an error is merged or written, a label and the error are written in
either order, and a filter that is no object is ignored. -/
theorem writes_agree_of_table :
    let table : ComponentState := { filterParams := some (Dict.ofList [("page", .bool true)]) }
    let failed := table.setField "error" (.str "gone")
    (∃ patch, decode? (.obj [("error", .str "gone")]) = some patch ∧ table.merge patch = failed) ∧
      failed.part? .filterParams = table.part? .filterParams ∧
      failed.setField "label" .null =
        (table.setField "label" .null).setField "error" (.str "gone") ∧
      failed.setField "error" .null = table.setField "error" .null ∧
      failed.setField "filterParams" (.str "page") = failed := by
  intro table failed
  obtain ⟨hmerge, hother, hcomm, hagain, hignored⟩ := writes_agree
  have hread : (decode? (.obj [("error", .str "gone")])).isSome = true := by decide +kernel
  obtain ⟨patch, hpatch⟩ := Option.isSome_iff_exists.1 hread
  refine ⟨⟨patch, hpatch, hmerge table _ _ patch hpatch fun _ => nofun⟩,
    hother table _ _ .filterParams (by decide), hcomm table _ _ _ _ (by decide),
    hagain table _ _ _ fun hignores => hignores.2.1 rfl,
    hignored failed _ _ ⟨rfl, nofun, nofun⟩⟩

end ComponentState

end LivePage
