import LivePage.Json.Decode

/-!
# Modal events

Requests to open or close a modal, as they are published to modal hosts.
-/

namespace LivePage

/-- A request to a modal host. -/
inductive ModalEvent where
  | opened (id : String) (title content : Option String)
  | closed (id : String)
deriving DecidableEq, Repr, Inhabited

namespace ModalEvent

def modalId : ModalEvent → String
  | opened id _ _ => id
  | closed id => id

def ofTag? (tag : String) (fields : Json.Fields) : Option ModalEvent :=
  if tag = "open" then do
    return opened (← fields.required "modalId" Json.text?)
      (← fields.optional "title" Json.text?) (← fields.optional "content" Json.text?)
  else if tag = "close" then do
    return closed (← fields.required "modalId" Json.text?)
  else none

/-- The fields of a variant in declared order. -/
def fieldNames (tag : String) : List String :=
  if tag = "open" then ["modalId", "title", "content"] else ["modalId"]

/-- An event is tagged by its `kind`; in an array the tag comes first. -/
def decode? : Json.Decoder ModalEvent
  | .arr (.str tag :: rest) => do
      ofTag? tag (← Json.fields? (fieldNames tag) (.arr rest))
  | .obj members => do
      let fields ← Json.members? ["kind"] (.obj members)
      let tag ← fields.required "kind" Json.text?
      ofTag? tag (← Json.members? (fieldNames tag) (.obj members))
  | _ => none

def encode : ModalEvent → Json
  | opened id title content =>
      .ofMembers ([("kind", .str "open"), ("modalId", .str id)] ++
        Json.member "title" .str title ++ Json.member "content" .str content)
  | closed id => .ofMembers [("kind", .str "close"), ("modalId", .str id)]

def shape : Json.Shape :=
  .tagged "kind" (fun tag => tag == "open" || tag == "close") fun j => (decode? j).isSome

/-- The event as log lines show it. -/
def described : ModalEvent → String
  | opened id title content =>
      "Open \x7b modal_id: " ++ Text.quote id ++ ", title: " ++
        Text.showOption Text.quote title ++ ", content: " ++
        Text.showOption Text.quote content ++ " \x7d"
  | closed id => "Close \x7b modal_id: " ++ Text.quote id ++ " \x7d"

end ModalEvent

end LivePage
