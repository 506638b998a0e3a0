import LivePage.Json.Decode
import LivePage.Proofs.Dict

/-!
# Faithful encoders

An encoder is faithful to a decoder if everything that was decoded is decoded again
from its encoding.  That is what a format has to offer where documents are rewritten:
the decoder may read more than the encoder writes, such as absent fields, records as
arrays or other spellings, but nothing that was read is lost.  Encoders of records are
faithful field by field.
-/

namespace LivePage.Json

variable {α : Type} {decode : Decoder α} {encode : α → Json}

/-- What is decoded is decoded again from its encoding, which is not null unless null
stands for it, so that as an optional field it does not count as absent. -/
structure Faithful (decode : Decoder α) (encode : α → Json) : Prop where
  again : ∀ {j a}, decode j = some a → decode (encode a) = some a
  present : ∀ {j a}, decode j = some a → encode a = null → j = null

/-- The values of a list of members that was decoded were decoded. -/
theorem exists_of_eachMember? {members : List (String × Json)} {entries : List (String × α)}
    (hdecode : eachMember? decode members = some entries) :
    ∀ entry ∈ entries, ∃ j, decode j = some entry.2 := by
  induction members generalizing entries with
  | nil =>
      cases hdecode
      exact fun entry hmem => absurd hmem List.not_mem_nil
  | cons member rest ih =>
      obtain ⟨key, j⟩ := member
      simp only [eachMember?, Option.bind_eq_bind, Option.bind_eq_some_iff, Option.pure_def,
        Option.some.injEq] at hdecode
      obtain ⟨a, hfirst, as, hrest, rfl⟩ := hdecode
      exact List.forall_mem_cons.2 ⟨⟨j, hfirst⟩, ih hrest⟩

/-- The values of a dictionary that was decoded were decoded. -/
theorem exists_of_dict? {j : Json} {d : Dict α} (hdecode : dict? decode j = some d) :
    ∀ entry ∈ d.entries, ∃ k, decode k = some entry.2 := by
  cases j with
  | obj members =>
      obtain ⟨entries, hentries, rfl⟩ := Option.map_eq_some_iff.1 hdecode
      exact fun entry hmem => exists_of_eachMember? hentries entry (Dict.mem_entries_ofList hmem)
  | _ => cases hdecode

namespace Faithful

theorem text : Faithful text? str where
  again := fun _ => rfl
  present := nofun

theorem bool : Faithful bool? Json.bool where
  again := fun _ => rfl
  present := nofun

theorem document : Faithful document? id where
  again := fun _ => rfl
  present := fun hdecode hnull => (Option.some.inj hdecode).trans hnull

theorem natBelow (bound : Nat) : Faithful (natBelow? bound) ofNat where
  again := fun {j n} hdecode => by
    obtain ⟨-, hbound⟩ := Option.filter_eq_some_iff.1 hdecode
    have hnat : (ofNat n).asNat? = some n := by simp [ofNat, ofInt, asNat?]
    exact Option.filter_eq_some_iff.2 ⟨hnat, hbound⟩
  present := nofun

/-- Names that are read back as what they name. -/
theorem choice {ofName : String → Option α} {name : α → String}
    (hname : ∀ a, ofName (name a) = some a) : Faithful (choice? ofName) (str ∘ name) where
  again := fun {_ a} _ => hname a
  present := nofun

theorem each (hfaithful : Faithful decode encode) {items : List Json} {as : List α}
    (hdecode : each? decode items = some as) : each? decode (as.map encode) = some as := by
  induction items generalizing as with
  | nil =>
      cases hdecode
      rfl
  | cons j rest ih =>
      simp only [each?, Option.bind_eq_bind, Option.bind_eq_some_iff, Option.pure_def,
        Option.some.injEq] at hdecode
      obtain ⟨a, hfirst, as, hrest, rfl⟩ := hdecode
      simp [each?, hfaithful.again hfirst, ih hrest]

theorem list (hfaithful : Faithful decode encode) : Faithful (list? decode) (ofList encode) where
  again := fun {j as} hdecode => by
    cases j with
    | arr items => exact hfaithful.each hdecode
    | _ => cases hdecode
  present := nofun

theorem eachMember?_map {entries : List (String × α)}
    (hagain : ∀ entry ∈ entries, decode (encode entry.2) = some entry.2) :
    eachMember? decode (entries.map fun entry => (entry.1, encode entry.2)) = some entries := by
  induction entries with
  | nil => rfl
  | cons entry rest ih =>
      obtain ⟨hfirst, hrest⟩ := List.forall_mem_cons.1 hagain
      simp [eachMember?, hfirst, ih hrest]

theorem dict (hfaithful : Faithful decode encode) :
    Faithful (dict? decode) (ofValues encode) where
  again := fun {_ d} hdecode => by
    have hagain : ∀ entry ∈ d.entries, decode (encode entry.2) = some entry.2 := by
      intro entry hmem
      obtain ⟨value, hvalue⟩ := exists_of_dict? hdecode entry hmem
      exact hfaithful.again hvalue
    change (eachMember? decode (d.entries.map fun entry => (entry.1, encode entry.2))).map
      Dict.ofList = some d
    rw [eachMember?_map hagain, Option.map_some, Dict.ofList_entries]
  present := nofun

end Faithful

theorem eachMember?_document (members : List (String × Json)) :
    eachMember? document? members = some members := by
  have hread : eachMember? document? (members.map fun entry => (entry.1, id entry.2)) =
      some members := Faithful.eachMember?_map fun _ _ => rfl
  have hsame : members.map (fun entry => (entry.1, id entry.2)) = members := by simp
  rwa [hsame] at hread

theorem dict?_document (d : Dict Json) : dict? document? (ofDict d) = some d := by
  change (eachMember? document? d.entries).map Dict.ofList = some d
  rw [eachMember?_document, Option.map_some, Dict.ofList_entries]

/-- A dictionary of documents is its own encoding. -/
theorem Faithful.documents : Faithful (dict? document?) ofDict where
  again := fun _ => dict?_document _
  present := nofun

/-! ## Records -/

theorem repeated_entries (d : Dict Json) (key : String) : repeated key d.entries = false := by
  have hcount : d.keys.count key ≤ 1 := List.nodup_iff_count_le_one.1 d.nodup_keys key
  rw [repeated, decide_eq_false_iff_not, Nat.not_lt]
  calc
    (d.entries.filter fun member => member.1 = key).length
      = d.keys.count key := by
        rw [Dict.keys, List.count_eq_countP, List.countP_map, List.countP_eq_length_filter]
        rfl
    _ ≤ 1 := hcount

/-- The members of an object are read as they stand. -/
theorem eq_of_members? {names : List String} {members : List (String × Json)} {fields : Fields}
    (hread : members? names (obj members) = some fields) : fields = members := by
  rw [members?] at hread
  split at hread
  · cases hread
  · exact (Option.some.inj hread).symm

/-- What the library writes never holds a key twice. -/
theorem members?_entries (names : List String) (d : Dict Json) :
    members? names (obj d.entries) = some d.entries := by
  have hnever : names.any (repeated · d.entries) = false :=
    List.any_eq_false.2 fun key _ => by simp [repeated_entries]
  rw [members?, if_neg (by simp [hnever])]

theorem fields?_ofMembers (names : List String) (members : List (String × Json)) :
    fields? names (ofMembers members) = some (Dict.ofList members).entries :=
  members?_entries names (Dict.ofList members)

/-- A member that is there or not. -/
@[simp]
theorem get?_ofList_member (name : String) (encode : α → Json) (a : Option α) (key : String) :
    (Dict.ofList (member name encode a)).get? key = if name = key then a.map encode else none := by
  cases a with
  | none => simp [member]
  | some a => simp [member]

namespace Fields

variable {fields : Fields} {written : Dict Json} {name : String}

/-- A field that was required is found again where it is written. -/
theorem required_again (hfaithful : Faithful decode encode) {a : α}
    (hread : fields.required name decode = some a) (hget : written.get? name = some (encode a)) :
    required written.entries name decode = some a := by
  obtain ⟨j, -, hdecode⟩ := Option.bind_eq_some_iff.1 hread
  change (written.get? name).bind decode = some a
  rw [hget, Option.bind_some, hfaithful.again hdecode]

/-- A field with a default that can be written is found again. -/
theorem withDefault_again (hfaithful : Faithful decode encode) {a default : α}
    (hdefault : decode (encode default) = some default)
    (hread : fields.withDefault name default decode = some a)
    (hget : written.get? name = some (encode a)) :
    withDefault written.entries name default decode = some a := by
  have hagain : decode (encode a) = some a := by
    rw [withDefault] at hread
    split at hread
    · rwa [← Option.some.inj hread]
    · exact hfaithful.again hread
  have hwritten : get? written.entries name = some (encode a) := hget
  rw [withDefault, hwritten]
  exact hagain

/-- An optional field that is absent counts as null. -/
theorem optional_eq (fields : Fields) (name : String) (decode : Decoder α) :
    fields.optional name decode =
      match ofOption (fields.get? name) with
      | null => some none
      | j => (decode j).map some := by
  rw [optional]
  rcases fields.get? name with _ | _ | _ <;> rfl

/-- What was found for an optional field was decoded, and was not null. -/
theorem exists_of_optional {a : α} (hread : fields.optional name decode = some (some a)) :
    ∃ j, j ≠ null ∧ decode j = some a := by
  rw [optional_eq] at hread
  split at hread
  · cases hread
  · next j hnull =>
      obtain ⟨b, hdecode, hsome⟩ := Option.map_eq_some_iff.1 hread
      exact ⟨_, hnull, by rw [hdecode, hsome]⟩

/-- A field that is null where there is no value, or left out, is read as it was
written. -/
theorem optional_of_written {a : Option α}
    (hget : ofOption (written.get? name) = ofOption (a.map encode))
    (hagain : ∀ b ∈ a, encode b ≠ null ∧ decode (encode b) = some b) :
    Fields.optional written.entries name decode = some a := by
  change ofOption (get? written.entries name) = _ at hget
  rw [optional_eq, hget]
  cases a with
  | none => rfl
  | some b =>
      obtain ⟨hpresent, hdecode⟩ := hagain b rfl
      change (match encode b with | null => some none | j => (decode j).map some) = _
      split
      · next hnull => exact absurd hnull hpresent
      · rw [hdecode, Option.map_some]

/-- An optional field is found again where it is written. -/
theorem optional_again (hfaithful : Faithful decode encode) {a : Option α}
    (hread : fields.optional name decode = some a)
    (hget : ofOption (written.get? name) = ofOption (a.map encode)) :
    Fields.optional written.entries name decode = some a := by
  refine optional_of_written hget fun b hb => ?_
  rw [Option.mem_def.1 hb] at hread
  obtain ⟨j, hnull, hdecode⟩ := exists_of_optional hread
  exact ⟨fun hencode => hnull (hfaithful.present hdecode hencode), hfaithful.again hdecode⟩

end Fields

end LivePage.Json
