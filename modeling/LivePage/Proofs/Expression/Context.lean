import LivePage.Expression.Context
import LivePage.Proofs.Json.Faithful
import LivePage.Proofs.Path

/-!
# Contexts as documents

What expressions see of a context is what its encoding holds.  Every root stands for
one member of the encoded context, so resolving a path and walking it through the
document come to the same place or to none.  The parts are read in different ways: the form
and the components as dictionaries, the event from an object that is put together for it,
and the others from their own encodings.
-/

namespace LivePage

namespace Json

/-- A member that may be missing. -/
theorem member_eq_toList {α : Type} (key : String) (encode : α → Json) (given : Option α) :
    member key encode given = (given.map fun a => (key, encode a)).toList := by
  cases given <;> rfl

theorem step?_ofDict (d : Dict Json) (name : String) :
    (ofDict d).step? (.key name) = d.get? name := rfl

theorem step?_ofMembers (members : List (String × Json)) (name : String) :
    (ofMembers members).step? (.key name) = (Dict.ofList members).get? name := rfl

end Json

/-- The object that is put together for an event is its encoding. -/
theorem Event.seen_eq_encode (event : Event) : event.seen = event.encode := by
  rw [seen, encode, funext Trigger.encode_eq_name]

namespace Context

/-- The part of a context that a root names, as a document. -/
def part? (context : Context) : String → Option Json
  | "event" => some context.event.encode
  | "form" => some (.ofDict context.form)
  | "page" => some context.route.encode
  | "user" => some context.user.encode
  | "components" => some (.ofDict context.components)
  | "response" => context.response.map Response.encode
  | _ => none

/-- The members of an encoded context are its parts. -/
theorem member?_encode (context : Context) (name : String) :
    context.encode.member? name = context.part? name := by
  change (Dict.ofList _).get? name = _
  rw [part?.eq_def]
  split
  case h_7 hevent hform hpage huser hcomponents hresponse =>
    simp [Ne.symm hevent, Ne.symm hform, Ne.symm hpage, Ne.symm huser, Ne.symm hcomponents,
      Ne.symm hresponse]
  all_goals simp

theorem walk?_encode (context : Context) (segment : Segment) (rest : List Segment) :
    context.encode.walk? (segment :: rest) =
      (context.part? segment.name).bind (Json.walk? rest) := by
  rw [← member?_encode]
  rfl

/-- No root is a numeral. -/
theorem part?_text (context : Context) (n : Nat) : context.part? (Numeral.text n) = none := by
  have hne (name : String) (hname : name.toList.all Char.isDigit = false) :
      Numeral.text n ≠ name := by
    rintro rfl
    rw [List.all_eq_false] at hname
    obtain ⟨c, hc, hdigit⟩ := hname
    exact hdigit (Numeral.isDigit_of_mem_text hc)
  rw [part?.eq_def]
  split
  case h_7 => rfl
  all_goals next heq => exact absurd heq (hne _ (by decide))

/-- A first step that is a key picks a part of the context. -/
theorem resolve?_key (context : Context) (name : String) (rest : List Segment) :
    context.resolve? ⟨.key name :: rest⟩ = (context.part? name).bind (Json.walk? rest) := by
  rw [part?.eq_def]
  split
  case h_1 => exact congrArg (Json.walk? rest) context.event.seen_eq_encode
  case h_2 => exact context.form.walk?_eq rest
  case h_3 => rfl
  case h_4 => rfl
  case h_5 => exact context.components.walk?_eq rest
  case h_6 => exact Option.bind_map.symm
  case h_7 hevent hform hpage huser hcomponents hresponse =>
    rw [resolve?.eq_def, Option.bind_none]
    split
    case h_7 => rfl
    all_goals next hroot => simp_all [Path.root]

theorem resolve?_eq_walk? (context : Context) {path : Path} (hpath : path.segments ≠ []) :
    context.resolve? path = context.encode.walk? path.segments := by
  obtain ⟨segments⟩ := path
  cases segments with
  | nil => exact absurd rfl hpath
  | cons segment rest =>
      rw [walk?_encode]
      cases segment with
      | index position =>
          rw [Segment.name, part?_text]
          rfl
      | key name => exact context.resolve?_key name rest

/-- Expressions see exactly what the encoding of a context holds: a path that was read
from a text resolves to what is found on walking its steps through that document.  And
walking a dictionary is walking the object that it stands for.  The document has a member for
each root, but none for a response that is not there, and of the user only what is known. -/
theorem resolves_as_encoded (context : Context) :
    (∀ text path, Path.parse text = .ok path →
      context.resolve? path = context.encode.walk? path.segments) ∧
      (∀ (d : Dict Json) (segments : List Segment),
        d.walk? segments = (Json.ofDict d).walk? segments) ∧
      context.encode = .ofMembers
        ([("event", .ofMembers
            [("type", .ofOption (context.event.trigger.map fun trigger => .str trigger.name)),
              ("value", context.event.value), ("target", context.event.target)]),
          ("form", .ofDict context.form),
          ("page", .ofMembers
            [("params", .ofDict context.route.params), ("query", .ofDict context.route.query)]),
          ("user", .ofMembers
            ((context.user.id.map fun id => ("id", Json.str id)).toList ++
              (context.user.name.map fun name => ("name", Json.str name)).toList ++
              (context.user.email.map fun email => ("email", Json.str email)).toList ++
              (context.user.role.map fun role => ("role", Json.str role)).toList)),
          ("components", .ofDict context.components)] ++
        (context.response.map fun response =>
          ("response", Json.ofMembers
            ([("success", .bool response.success)] ++
              (response.data.map fun data => ("data", data)).toList ++
              (response.status.map fun status => ("status", Json.ofNat status)).toList ++
              (response.error.map fun error => ("error", Json.str error)).toList))).toList) := by
  refine ⟨fun _ _ hparse => context.resolve?_eq_walk? (Path.segments_ne_nil hparse),
    Dict.walk?_eq, ?_⟩
  rw [encode, ← context.event.seen_eq_encode]
  simp only [User.encode, Response.encode, Json.member_eq_toList]
  rfl

/-- A click with all that expressions can ask for: what is there is read by its path, and
what is not there, or has no root of its own, is read by none. -/
theorem resolves_as_encoded_of_item :
    let context : Context := {
      event := { trigger := some .onClick, target := .ofMembers [("id", .str "btn")] }
      form := Dict.ofList [("q", .str "abc")]
      route := { params := Dict.ofList [("id", .str "17")], query := Dict.ofList [("tab", .null)] }
      user := { email := some "a@b.c" }
      components := Dict.ofList [("t", .arr [.null, .str "x"])]
      response := some { success := true, data := some (.arr []), status := some 200 } }
    let reads (text : String) (value : Option Json) := ∃ path, Path.parse text = .ok path ∧
      context.encode.walk? path.segments = value
    reads "event.type" (some (.str "onClick")) ∧ reads "event.value" (some .null) ∧
      reads "event.target.id" (some (.str "btn")) ∧
      reads "form" (some (.obj [("q", .str "abc")])) ∧ reads "form.q" (some (.str "abc")) ∧
      reads "page.params.id" (some (.str "17")) ∧ reads "page.query.tab" (some .null) ∧
      reads "user" (some (.obj [("email", .str "a@b.c")])) ∧ reads "user.name" none ∧
      reads "components.t[1]" (some (.str "x")) ∧
      reads "response.status" (some (.ofNat 200)) ∧ reads "response.error" none ∧
      reads "other.thing" none ∧ reads "[0]" none := by
  intro context reads
  have hreads {text : String} (segments : List Segment) {value : Option Json}
      (hparse : Path.parse text = .ok ⟨segments⟩) (hvalue : context.resolve? ⟨segments⟩ = value) :
      reads text value :=
    ⟨_, hparse, (((resolves_as_encoded context).1 _ _ hparse).symm.trans hvalue)⟩
  refine ⟨hreads [.key "event", .key "type"] (by decide +kernel) ?_,
    hreads [.key "event", .key "value"] (by decide +kernel) ?_,
    hreads [.key "event", .key "target", .key "id"] (by decide +kernel) ?_,
    hreads [.key "form"] (by decide +kernel) rfl,
    hreads [.key "form", .key "q"] (by decide +kernel) rfl,
    hreads [.key "page", .key "params", .key "id"] (by decide +kernel) ?_,
    hreads [.key "page", .key "query", .key "tab"] (by decide +kernel) ?_,
    hreads [.key "user"] (by decide +kernel) rfl,
    hreads [.key "user", .key "name"] (by decide +kernel) rfl,
    hreads [.key "components", .key "t", .index 1] (by decide +kernel) rfl,
    hreads [.key "response", .key "status"] (by decide +kernel) rfl,
    hreads [.key "response", .key "error"] (by decide +kernel) rfl,
    hreads [.key "other", .key "thing"] (by decide +kernel) rfl,
    hreads [.index 0] (by decide +kernel) rfl⟩
  -- the objects with several members, which are put in order first
  all_goals
    rw [resolve?_key]
    simp [context, part?, ← Event.seen_eq_encode, Event.seen, Route.encode, Json.walk?,
      Json.step?_ofMembers, Json.step?_ofDict, Dict.get?_ofList, Trigger.name, Json.ofOption]

end Context

end LivePage
