import LivePage.Page.Action
import LivePage.Proofs.Json.Faithful

/-!
# The format of actions

Encodings of actions are faithful.  The kind of an action and its options share one
object, so the members of a kind have to stay clear of the tag and of the options; and
since branches are actions again, what is read back of an action follows from what is
read back of those below it.
-/

namespace LivePage

open Json (Faithful)
open Json.Fields

theorem Template.faithful : Faithful Template.decode? Template.encode where
  again := fun _ => rfl
  present := nofun

theorem Operator.faithful : Faithful Operator.decode? Operator.encode :=
  .choice fun operator => congrArg some operator.ofName_name

theorem HttpMethod.faithful : Faithful HttpMethod.decode? HttpMethod.encode :=
  .choice HttpMethod.ofName?_name

theorem ToastKind.faithful : Faithful ToastKind.decode? ToastKind.encode :=
  .choice ToastKind.ofName?_name

theorem VisibilityChange.faithful : Faithful VisibilityChange.decode? VisibilityChange.encode :=
  .choice VisibilityChange.ofName?_name

theorem Condition.faithful : Faithful Condition.decode? Condition.encode where
  again := fun hdecode => by
    simp only [decode?, Option.bind_eq_bind, Option.bind_eq_some_iff, Option.pure_def,
      Option.some.injEq] at hdecode ⊢
    obtain ⟨fields, -, field, hfield, operator, hoperator, value, hvalue, rfl⟩ := hdecode
    exact ⟨_, Json.fields?_ofMembers _ _, field, required_again .text hfield (by simp),
      operator, required_again Operator.faithful hoperator (by simp),
      value, optional_again .document hvalue (by simp), rfl⟩
  present := nofun

/-! ## Kinds -/

namespace ActionKind

/-- The members of an action that do not belong to its kind. -/
def commonNames : List String :=
  "type" :: Action.optionNames

/-- The members of a kind stay clear of the others. -/
theorem get?_members {name : String} (hname : name ∈ commonNames) (kind : ActionKind) :
    (Dict.ofList kind.members).get? name = none := by
  simp only [commonNames, Action.optionNames, List.mem_cons, List.not_mem_nil, or_false] at hname
  rcases hname with rfl | rfl | rfl | rfl | rfl | rfl <;> cases kind <;> simp [members]

/-- The fields of a kind are found in some members. -/
def Found (fields : Json.Fields) : ActionKind → Prop
  | callApi path method body headers =>
      fields.required "apiPath" Template.decode? = some path ∧
        fields.withDefault "apiMethod" .get HttpMethod.decode? = some method ∧
        fields.optional "apiBody" Json.document? = some body ∧
        fields.optional "apiHeaders" (Json.dict? Json.document?) = some headers
  | setValue component value field =>
      fields.required "targetComponent" Json.text? = some component ∧
        fields.withDefault "value" .null Json.document? = some value ∧
        fields.optional "targetField" Json.text? = some field
  | filterData component field value =>
      fields.required "targetComponent" Json.text? = some component ∧
        fields.required "filterField" Json.text? = some field ∧
        fields.withDefault "filterValue" .null Json.document? = some value
  | navigate url newTab =>
      fields.required "url" Template.decode? = some url ∧
        fields.withDefault "openInNewTab" false Json.bool? = some newTab
  | showToast message kind title duration =>
      fields.required "message" Template.decode? = some message ∧
        fields.withDefault "toastType" .info ToastKind.decode? = some kind ∧
        fields.optional "title" Template.decode? = some title ∧
        fields.optional "duration" (Json.natBelow? Json.word64) = some duration
  | showModal id title content =>
      fields.required "modalId" Json.text? = some id ∧
        fields.optional "title" Template.decode? = some title ∧
        fields.optional "content" Template.decode? = some content
  | closeModal id => fields.required "modalId" Json.text? = some id
  | refresh component => fields.required "targetComponent" Json.text? = some component
  | setVisibility component change =>
      fields.required "targetComponent" Json.text? = some component ∧
        fields.withDefault "visibility" .toggle VisibilityChange.decode? = some change
  | setLoading component loading =>
      fields.required "targetComponent" Json.text? = some component ∧
        fields.withDefault "loading" true Json.bool? = some loading
  | runActions group => fields.optional "actionGroup" Json.text? = some group
  | unknown => True

/-- What a tag is decoded to has the fields that were read. -/
theorem found_of_decodeTagged? {tag : String} {read : Json.Fields} {kind : ActionKind}
    (hdecode : decodeTagged? tag read = some kind) : kind.Found read := by
  unfold decodeTagged? at hdecode
  split at hdecode
  all_goals
    simp only [Option.bind_eq_bind, Option.bind_eq_some_iff, Option.pure_def,
      Option.some.injEq] at hdecode
  all_goals grind [Found, Json.eq_of_members?]

/-- A kind is decoded wherever its fields are found, if no member comes twice. -/
theorem decodeTagged?_of_found {written : Dict Json} {kind : ActionKind}
    (hfound : kind.Found written.entries) :
    decodeTagged? kind.name written.entries = some kind := by
  cases kind
  all_goals
    simp only [Found] at hfound
    simp [decodeTagged?, name, Json.members?_entries, hfound]

/-- The fields of a kind are found again wherever its members are written with others that do
not belong to it. -/
theorem Found.again {read : Json.Fields} {kind : ActionKind} (hfound : kind.Found read)
    {written : Dict Json}
    (hwritten : ∀ name ∉ commonNames, written.get? name = (Dict.ofList kind.members).get? name) :
    kind.Found written.entries := by
  cases kind
  case' callApi path method body headers =>
    obtain ⟨hpath, hmethod, hbody, hheaders⟩ := hfound
    refine ⟨required_again Template.faithful hpath ?_,
      withDefault_again HttpMethod.faithful rfl hmethod ?_,
      optional_again .document hbody ?_, optional_again .documents hheaders ?_⟩
  case' setValue component value field =>
    obtain ⟨hcomponent, hvalue, hfield⟩ := hfound
    refine ⟨required_again .text hcomponent ?_, withDefault_again .document rfl hvalue ?_,
      optional_again .text hfield ?_⟩
  case' filterData component field value =>
    obtain ⟨hcomponent, hfield, hvalue⟩ := hfound
    refine ⟨required_again .text hcomponent ?_, required_again .text hfield ?_,
      withDefault_again .document rfl hvalue ?_⟩
  case' navigate url newTab =>
    obtain ⟨hurl, hnewTab⟩ := hfound
    refine ⟨required_again Template.faithful hurl ?_, withDefault_again .bool rfl hnewTab ?_⟩
  case' showToast message kind title duration =>
    obtain ⟨hmessage, hkind, htitle, hduration⟩ := hfound
    refine ⟨required_again Template.faithful hmessage ?_,
      withDefault_again ToastKind.faithful rfl hkind ?_,
      optional_again Template.faithful htitle ?_, optional_again (.natBelow _) hduration ?_⟩
  case' showModal id title content =>
    obtain ⟨hid, htitle, hcontent⟩ := hfound
    refine ⟨required_again .text hid ?_, optional_again Template.faithful htitle ?_,
      optional_again Template.faithful hcontent ?_⟩
  case' closeModal id => refine required_again .text hfound ?_
  case' refresh component => refine required_again .text hfound ?_
  case' setVisibility component change =>
    obtain ⟨hcomponent, hchange⟩ := hfound
    refine ⟨required_again .text hcomponent ?_,
      withDefault_again VisibilityChange.faithful rfl hchange ?_⟩
  case' setLoading component loading =>
    obtain ⟨hcomponent, hloading⟩ := hfound
    refine ⟨required_again .text hcomponent ?_, withDefault_again .bool rfl hloading ?_⟩
  case' runActions group => refine optional_again .text hfound ?_
  case unknown => trivial
  -- Every field of a kind stands under its own name.
  all_goals
    rw [hwritten _ (by decide)]
    simp [members]

/-- A kind is read back wherever its members are written with others that do not
belong to it. -/
theorem decodeTagged?_again {tag : String} {read : Json.Fields} {kind : ActionKind}
    (hdecode : decodeTagged? tag read = some kind) {written : Dict Json}
    (hwritten : ∀ name ∉ commonNames, written.get? name = (Dict.ofList kind.members).get? name) :
    decodeTagged? kind.name written.entries = some kind :=
  decodeTagged?_of_found ((found_of_decodeTagged? hdecode).again hwritten)

/-- A kind is read back from an object that holds its tag and its members, and others
that do not belong to it. -/
theorem decode?_again {read : Json.Fields} {kind : ActionKind} (hdecode : decode? read = some kind)
    {written : Dict Json} (htag : written.get? "type" = some (.str kind.name))
    (hwritten : ∀ name ∉ commonNames, written.get? name = (Dict.ofList kind.members).get? name) :
    decode? written.entries = some kind := by
  simp only [decode?, Option.bind_eq_bind, Option.bind_eq_some_iff] at hdecode ⊢
  obtain ⟨fields, -, tag, -, hkind⟩ := hdecode
  have hread : required written.entries "type" tag? = some kind.name := by
    change (written.get? "type").bind tag? = _
    rw [htag]
    rfl
  exact ⟨_, Json.members?_entries _ written, _, hread, decodeTagged?_again hkind hwritten⟩

end ActionKind

/-! ## Actions -/

namespace Action

theorem encodeBranch_eq (key : String) (branch : Option (List Action)) :
    encodeBranch key branch =
      Json.member key (fun actions => .arr (encodeList actions)) branch := by
  cases branch <;> rfl

/-- The members of an action that are its options. -/
def optionMembers (action : Action) : List (String × Json) :=
  Json.member "condition" Condition.encode action.condition ++
    Json.member "delay" .ofNat action.delay ++ [("async", .bool action.detached)] ++
    encodeBranch "onSuccess" action.onSuccess ++ encodeBranch "onError" action.onError

/-- The object that an action is written as. -/
def written (action : Action) : Dict Json :=
  .ofList (("type", .str action.kind.name) :: action.kind.members ++ action.optionMembers)

theorem encode_eq (action : Action) : action.encode = .ofDict action.written := by
  obtain ⟨kind, condition, delay, detached, onSuccess, onError⟩ := action
  simp only [encode, written, optionMembers, Json.ofMembers, List.cons_append, List.append_assoc,
    List.nil_append]

theorem get?_optionMembers {name : String} (hname : name ∉ optionNames) (action : Action) :
    (Dict.ofList action.optionMembers).get? name = none := by
  have hne : ∀ option ∈ optionNames, ¬option = name := fun option hoption heq =>
    hname (heq ▸ hoption)
  simp only [optionNames, List.forall_mem_cons] at hne
  obtain ⟨hcondition, hdelay, hasync, hsuccess, herror, -⟩ := hne
  simp [optionMembers, encodeBranch_eq, hcondition, hdelay, hasync, hsuccess, herror]

theorem get?_written_type (action : Action) :
    action.written.get? "type" = some (.str action.kind.name) := by
  have hkind := action.kind.get?_members (show "type" ∈ ActionKind.commonNames by decide)
  have hoption := action.get?_optionMembers (show "type" ∉ optionNames by decide)
  simp [written, hkind, hoption]

theorem get?_written_of_kind {name : String} (hname : name ∉ ActionKind.commonNames)
    (action : Action) :
    action.written.get? name = (Dict.ofList action.kind.members).get? name := by
  obtain ⟨htype, hoption⟩ := not_or.1 (List.mem_cons.not.1 hname)
  have hnone := action.get?_optionMembers hoption
  simp [written, hnone, Ne.symm htype]

theorem get?_written_of_option {name : String} (hname : name ∈ optionNames) (action : Action) :
    action.written.get? name = (Dict.ofList action.optionMembers).get? name := by
  have hkind := action.kind.get?_members (List.mem_cons_of_mem "type" hname)
  have htype : ¬"type" = name := fun heq => absurd (heq ▸ hname) (by decide)
  simp [written, hkind, htype]

/-- A branch is what the first member with its key holds. -/
theorem branchAt?_eq (key : String) (members : List (String × Json)) :
    branchAt? key members = ((Dict.find? key members).map branch?).getD (some none) := by
  induction members with
  | nil => rfl
  | cons member rest ih =>
      obtain ⟨k, j⟩ := member
      rw [branchAt?, Dict.find?]
      split
      · rfl
      · exact ih

/-- A branch is read back if its actions are. -/
theorem branchAt?_again {key : String} {branch : Option (List Action)} {written : Dict Json}
    (hagain : ∀ actions ∈ branch, actions? (encodeList actions) = some actions)
    (hget : written.get? key = branch.map fun actions => .arr (encodeList actions)) :
    branchAt? key written.entries = some branch := by
  change Dict.find? key written.entries = _ at hget
  rw [branchAt?_eq, hget]
  cases branch with
  | none => rfl
  | some actions =>
      change (actions? (encodeList actions)).map some = _
      rw [hagain actions rfl, Option.map_some]

mutual

/-- What an action is read back as follows from what the actions below it are. -/
theorem decode?_encode (j : Json) {action : Action} (hdecode : decode? j = some action) :
    decode? action.encode = some action := by
  match j, hdecode with
  | .obj members, hdecode =>
    simp only [decode?, Option.bind_eq_bind, Option.bind_eq_some_iff, Option.pure_def,
      Option.some.injEq] at hdecode
    obtain ⟨kind, hkind, fields, -, condition, hcondition, delay, hdelay, detached, hdetached,
      success, hsuccess, failure, hfailure, rfl⟩ := hdecode
    rw [encode_eq, Json.ofDict]
    simp only [decode?, Option.bind_eq_bind, Option.bind_eq_some_iff, Option.pure_def,
      Option.some.injEq]
    refine ⟨kind, ActionKind.decode?_again hkind (get?_written_type _)
        fun name hname => get?_written_of_kind hname _,
      _, Json.members?_entries _ _, condition, optional_again Condition.faithful hcondition ?_,
      delay, optional_again (.natBelow _) hdelay ?_,
      detached, withDefault_again .bool rfl hdetached ?_,
      success, branchAt?_again (branchAt?_encodeList members hsuccess) ?_,
      failure, branchAt?_again (branchAt?_encodeList members hfailure) ?_, rfl⟩
    all_goals
      rw [get?_written_of_option (by decide)]
      simp [optionMembers, encodeBranch_eq]

theorem branchAt?_encodeList (members : List (String × Json)) {key : String}
    {branch : Option (List Action)} (hdecode : branchAt? key members = some branch) :
    ∀ actions ∈ branch, actions? (encodeList actions) = some actions := by
  match members, hdecode with
  | [], hdecode =>
    cases hdecode
    exact nofun
  | (k, j) :: rest, hdecode =>
    rw [branchAt?] at hdecode
    split at hdecode
    · exact branch?_encodeList j hdecode
    · exact branchAt?_encodeList rest hdecode

theorem branch?_encodeList (j : Json) {branch : Option (List Action)}
    (hdecode : branch? j = some branch) :
    ∀ actions ∈ branch, actions? (encodeList actions) = some actions := by
  match j, hdecode with
  | .null, hdecode =>
    cases hdecode
    exact nofun
  | .arr items, hdecode =>
    obtain ⟨actions, hactions, rfl⟩ := Option.map_eq_some_iff.1 hdecode
    intro read hread
    obtain rfl := Option.some.inj hread
    exact actions?_encodeList items hactions

theorem actions?_encodeList (items : List Json) {actions : List Action}
    (hdecode : actions? items = some actions) :
    actions? (encodeList actions) = some actions := by
  match items, hdecode with
  | [], hdecode =>
    cases hdecode
    rfl
  | j :: rest, hdecode =>
    simp only [actions?, Option.bind_eq_bind, Option.bind_eq_some_iff, Option.pure_def,
      Option.some.injEq] at hdecode
    obtain ⟨action, hfirst, actions, hrest, rfl⟩ := hdecode
    simp [encodeList, actions?, decode?_encode j hfirst, actions?_encodeList rest hrest]

end

theorem faithful : Faithful decode? encode where
  again := fun {j _} hdecode => decode?_encode j hdecode
  present := fun {_ action} _ hnull => by
    rw [encode_eq] at hnull
    cases hnull

end Action

end LivePage
