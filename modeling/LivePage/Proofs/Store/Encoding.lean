import LivePage.Proofs.Json.Faithful
import LivePage.Store.Component

/-!
# Encodings of component states

A component state and the document that it is written as.  A state in which no further
field has the name of a built-in one is read back from its encoding as it was, with
one exception: a value or data that is null is read back as absent, since a document
cannot tell the two apart.  Such a state is written with no key twice, and under the
name of a built-in field stands that field.
-/

namespace LivePage.ComponentState

open Json (Faithful)
open Json.Fields

/-- No further field has the name of a built-in one. -/
def Regular (state : ComponentState) : Prop :=
  ∀ key ∈ builtinNames, state.extra.get? key = none

/-- The value or the data is null, which a document cannot tell from absent. -/
def HoldsNull (state : ComponentState) : Prop :=
  state.value = some .null ∨ state.data = some .null

/-- The state without a value or data that is null. -/
def withoutNulls (state : ComponentState) : ComponentState :=
  { state with
    value := state.value.filter fun j => !j.isNull
    data := state.data.filter fun j => !j.isNull }

theorem filter_isNull_eq_self_iff (value : Option Json) :
    value.filter (fun j => !j.isNull) = value ↔ value ≠ some .null := by
  rcases value with _ | _ | _ <;> simp [Json.isNull]

theorem withoutNulls_eq_self_iff (state : ComponentState) :
    state.withoutNulls = state ↔ ¬state.HoldsNull := by
  rw [HoldsNull, not_or, ← ne_eq, ← ne_eq, ← filter_isNull_eq_self_iff,
    ← filter_isNull_eq_self_iff]
  constructor
  · intro heq
    exact ⟨congrArg value heq, congrArg data heq⟩
  · rintro ⟨hvalue, hdata⟩
    rw [withoutNulls, hvalue, hdata]

theorem get?_builtinMembers {key : String} (hkey : key ∉ builtinNames) (state : ComponentState) :
    (Dict.ofList state.builtinMembers).get? key = none := by
  have hne : ∀ name ∈ builtinNames, ¬name = key := fun name hname heq => hkey (heq ▸ hname)
  simp only [builtinNames, List.forall_mem_cons] at hne
  obtain ⟨hvalue, hloading, hvisible, hdata, herror, hparams, -⟩ := hne
  simp [builtinMembers, hvalue, hloading, hvisible, hdata, herror, hparams]

/-- A built-in name reads as its field, and any other name as the further field. -/
theorem get?_encode {state : ComponentState} (hregular : state.Regular) (key : String) :
    (Dict.ofList (state.builtinMembers ++ state.extra.entries)).get? key =
      if builtinNames.contains key then (Dict.ofList state.builtinMembers).get? key
      else state.extra.get? key := by
  rw [Dict.get?_ofList_append, Dict.ofList_entries]
  split
  · next hbuiltin => rw [hregular key (by simpa using hbuiltin), Option.none_or]
  · next hfurther => rw [get?_builtinMembers (by simpa using hfurther), Option.or_none]

/-- The members that a state is written as, in order. -/
def members (state : ComponentState) : List (String × Json) :=
  state.builtinMembers ++ state.extra.entries

/-- What stands under a key: the field with that name, or else a further field. -/
def field? (state : ComponentState) : String → Option Json
  | "value" => state.value
  | "loading" => state.loading.map .bool
  | "visible" => state.visible.map .bool
  | "data" => state.data
  | "error" => state.error.map .str
  | "filterParams" => state.filterParams.map .ofDict
  | key => state.extra.get? key

theorem keys_member_sublist (key : String) (encode : α → Json) (a : Option α) :
    ((Json.member key encode a).map Prod.fst).Sublist [key] := by
  cases a with
  | none => exact List.nil_sublist _
  | some a => exact List.Sublist.refl _

theorem keys_builtinMembers_sublist (state : ComponentState) :
    (state.builtinMembers.map Prod.fst).Sublist builtinNames := by
  simp only [builtinMembers, List.map_append]
  exact (((((keys_member_sublist "value" id state.value).append
    (keys_member_sublist "loading" Json.bool state.loading)).append
    (keys_member_sublist "visible" Json.bool state.visible)).append
    (keys_member_sublist "data" id state.data)).append
    (keys_member_sublist "error" Json.str state.error)).append
    (keys_member_sublist "filterParams" Json.ofDict state.filterParams)

/-- A regular state is written with no key twice. -/
theorem nodup_keys_members {state : ComponentState} (hregular : state.Regular) :
    (state.members.map Prod.fst).Nodup := by
  have hsublist := keys_builtinMembers_sublist state
  rw [members, List.map_append, List.nodup_append]
  refine ⟨hsublist.nodup (by decide), state.extra.nodup_keys, ?_⟩
  rintro key hbuiltin other hfurther rfl
  have habsent : state.extra.get? key = none := hregular key (hsublist.subset hbuiltin)
  exact Dict.find?_eq_none_iff.1 habsent hfurther

/-- A reader of an encoded state finds under every key what the state holds there. -/
theorem member?_encode {state : ComponentState} (hregular : state.Regular) (key : String) :
    state.encode.member? key = state.field? key := by
  have hmember (key : String) : state.encode.member? key =
      if builtinNames.contains key then (Dict.ofList state.builtinMembers).get? key
      else state.extra.get? key := get?_encode hregular key
  rw [field?.eq_def]
  split
  case h_7 hvalue hloading hvisible hdata herror hparams =>
    rw [hmember, if_neg]
    simp only [builtinNames, List.contains_eq_mem, List.mem_cons, List.not_mem_nil, or_false,
      decide_eq_true_eq, not_or]
    exact ⟨hvalue, hloading, hvisible, hdata, herror, hparams⟩
  all_goals simp [hmember, builtinNames, builtinMembers]

/-- An optional document is read back as it is, but for null. -/
theorem optional_document {written : Dict Json} {name : String} {value : Option Json}
    (hget : written.get? name = value) :
    optional written.entries name Json.document? = some (value.filter fun j => !j.isNull) := by
  change get? written.entries name = value at hget
  rw [optional_eq, hget]
  rcases value with _ | _ | _ <;> rfl

/-- What a regular state is read back as. -/
theorem decode?_encode_of_regular {state : ComponentState} (hregular : state.Regular) :
    decode? state.encode = some state.withoutNulls := by
  have hget := get?_encode hregular
  change decode? (.obj (Dict.ofList (state.builtinMembers ++ state.extra.entries)).entries) = _
  generalize Dict.ofList (state.builtinMembers ++ state.extra.entries) = written at hget ⊢
  have hvalue : written.get? "value" = state.value := by
    simp [hget, builtinNames, builtinMembers]
  have hloading : written.get? "loading" = state.loading.map .bool := by
    simp [hget, builtinNames, builtinMembers]
  have hvisible : written.get? "visible" = state.visible.map .bool := by
    simp [hget, builtinNames, builtinMembers]
  have hdata : written.get? "data" = state.data := by
    simp [hget, builtinNames, builtinMembers]
  have herror : written.get? "error" = state.error.map .str := by
    simp [hget, builtinNames, builtinMembers]
  have hparams : written.get? "filterParams" = state.filterParams.map .ofDict := by
    simp [hget, builtinNames, builtinMembers]
  have hextra : written.filterKeys (fun key => !builtinNames.contains key) = state.extra := by
    apply Dict.ext_get?
    intro key
    rw [Dict.get?_filterKeys, hget]
    by_cases hkey : key ∈ builtinNames
    · simp [hkey, hregular key hkey]
    · simp [hkey]
  simp only [decode?, Option.bind_eq_bind, Option.bind_eq_some_iff, Option.pure_def,
    Option.some.injEq, Dict.ofList_entries, hextra]
  exact ⟨_, Json.members?_entries _ written, _, optional_document hvalue,
    _, optional_of_written (congrArg Json.ofOption hloading) fun _ _ => ⟨by simp, rfl⟩,
    _, optional_of_written (congrArg Json.ofOption hvisible) fun _ _ => ⟨by simp, rfl⟩,
    _, optional_document hdata,
    _, optional_of_written (congrArg Json.ofOption herror) fun _ _ => ⟨by simp, rfl⟩,
    _, optional_of_written (congrArg Json.ofOption hparams) fun d _ =>
      ⟨by simp [Json.ofDict], Json.dict?_document d⟩, rfl⟩

/-- A document that was read from an optional field is not null. -/
theorem ne_null_of_optional {fields : Json.Fields} {name : String} {value : Option Json}
    (hread : fields.optional name Json.document? = some value) : value ≠ some .null := by
  rintro rfl
  obtain ⟨j, hnull, hdecode⟩ := exists_of_optional hread
  exact hnull (Option.some.inj hdecode)

/-- What was decoded is regular, and has neither a value nor data that is null. -/
theorem regular_of_decode? {j : Json} {state : ComponentState} (hdecode : decode? j = some state) :
    state.Regular ∧ ¬state.HoldsNull := by
  cases j with
  | obj members =>
      simp only [decode?, Option.bind_eq_bind, Option.bind_eq_some_iff, Option.pure_def,
        Option.some.injEq] at hdecode
      obtain ⟨fields, -, value, hvalue, loading, -, visible, -, data, hdata, error, -, params, -,
        rfl⟩ := hdecode
      constructor
      · intro key hkey
        simp [Dict.get?_filterKeys, hkey]
      · exact not_or.2 ⟨ne_null_of_optional hvalue, ne_null_of_optional hdata⟩
  | _ => cases hdecode

/-- A regular state is read back as it was unless it holds a null. -/
theorem decode?_encode_eq_self_iff {state : ComponentState} (hregular : state.Regular) :
    decode? state.encode = some state ↔ ¬state.HoldsNull := by
  rw [decode?_encode_of_regular hregular, Option.some_inj, withoutNulls_eq_self_iff]

theorem faithful : Faithful decode? encode where
  again := fun hdecode => by
    obtain ⟨hregular, hnulls⟩ := regular_of_decode? hdecode
    exact (decode?_encode_eq_self_iff hregular).2 hnulls
  present := nofun

end LivePage.ComponentState
