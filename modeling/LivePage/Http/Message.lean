import LivePage.Json.Decode

/-!
# HTTP messages

Requests, responses, and the two ways in which a request fails: the server
answers with a status that is no success, or no answer comes at all.
-/

namespace LivePage

/-- The methods that a request may use. -/
inductive HttpMethod where
  | get
  | post
  | put
  | patch
  | delete
deriving DecidableEq, Repr, Inhabited

namespace HttpMethod

/-- The name of a method in upper case. -/
def name : HttpMethod → String
  | get => "GET"
  | post => "POST"
  | put => "PUT"
  | patch => "PATCH"
  | delete => "DELETE"

/-- The method with a name, which is all upper case or all lower case. -/
def ofName? : String → Option HttpMethod
  | "GET" | "get" => some get
  | "POST" | "post" => some post
  | "PUT" | "put" => some put
  | "PATCH" | "patch" => some patch
  | "DELETE" | "delete" => some delete
  | _ => none

def decode? : Json.Decoder HttpMethod :=
  Json.choice? ofName?

def encode (method : HttpMethod) : Json :=
  .str method.name

def shape : Json.Shape :=
  .choice fun name => (ofName? name).isSome

theorem ofName?_name (method : HttpMethod) : ofName? method.name = some method := by
  cases method <;> rfl

end HttpMethod

/-- A request as it is handed to an HTTP client. -/
structure HttpRequest where
  method : HttpMethod
  url : String
  body : Option Json := none
  headers : Dict String := ∅
deriving Inhabited

namespace HttpRequest

def decode? : Json.Decoder HttpRequest := fun j => do
  let fields ← Json.fields? ["method", "url", "body", "headers"] j
  return {
    method := ← fields.required "method" HttpMethod.decode?
    url := ← fields.required "url" Json.text?
    body := ← fields.optional "body" Json.document?
    headers := ← fields.withDefault "headers" ∅ (Json.dict? Json.text?) }

def encode (request : HttpRequest) : Json :=
  .ofMembers ([("method", request.method.encode), ("url", .str request.url),
    ("headers", Json.ofValues .str request.headers)] ++ Json.member "body" id request.body)

def shape : Json.Shape :=
  .record [("method", HttpMethod.shape, .required), ("url", .text, .required),
    ("body", .optional .any, .optional), ("headers", .dict .text, .optional)]

end HttpRequest

/-- An answer with a status that is a success. -/
structure HttpResponse where
  status : Nat
  data : Json := .null
deriving Repr, Inhabited

namespace HttpResponse

def decode? : Json.Decoder HttpResponse := fun j => do
  let fields ← Json.fields? ["status", "data"] j
  return {
    status := ← fields.required "status" (Json.natBelow? Json.word16)
    data := ← fields.withDefault "data" .null Json.document? }

def encode (response : HttpResponse) : Json :=
  .ofMembers [("status", .ofNat response.status), ("data", response.data)]

def shape : Json.Shape :=
  .record [("status", .nat Json.word16, .required), ("data", .any, .optional)]

end HttpResponse

/-- Why a request failed. -/
inductive HttpError where
  /-- The server answered with a status that is no success. -/
  | status (code : Nat) (body : Json)
  /-- No answer came. -/
  | transport (reason : String)
deriving Repr, Inhabited

namespace HttpError

/-- The message of a failure: what the server says in the body's `message`, if
that is a text. -/
def message : HttpError → String
  | status code body =>
      match (body.member? "message").bind Json.asString? with
      | some text => text
      | none => "Request failed with status code " ++ Numeral.text code
  | transport reason => reason

end HttpError

/-- How a request ends. -/
abbrev HttpReply := Except HttpError HttpResponse

end LivePage
