import LivePage.Http.Message
import LivePage.Json.Shape
import LivePage.Text.Blank
import LivePage.Url.Parser

/-!
# HTTP client

How a request becomes what a server receives, and how what the server sends back
becomes a reply.  Paths are resolved against a base address; every way in which
this goes wrong has a wording of its own, and so has a connection that fails.
-/

namespace LivePage

/-- What a server receives. -/
structure WireRequest where
  method : HttpMethod
  /-- Path and query. -/
  target : String
  /-- Headers by their names in small letters. -/
  headers : Dict String
  body : String
deriving Inhabited

/-- What a server sends back. -/
structure WireReply where
  status : Nat
  text : String
  /-- How many bytes fewer than announced arrive. -/
  missing : Nat := 0
deriving Inhabited

namespace HttpClient

/-- The address that a path stands for: an address as it is, and anything else
resolved against the base. -/
def resolve (base : Option Url) (path : String) : Except HttpError Url :=
  match Url.parse path with
  | .ok url => .ok url
  | .error _ =>
      match base with
      | none => .error (.transport ("relative URL '" ++ path ++ "' without a base URL"))
      | some base =>
          (base.join path).mapError fun error =>
            .transport ("invalid URL '" ++ path ++ "': " ++ error.message)

/-- The error of a request that cannot be built. -/
def unbuilt : HttpError :=
  .transport "builder error"

/-- The error of a request that cannot be built for an address. -/
def unbuiltFor (url : Url) : HttpError :=
  .transport ("builder error for url (" ++ url.text ++ ")")

/-- The error of a request that does not reach its server. -/
def unsent (url : Url) : HttpError :=
  .transport ("error sending request for url (" ++ url.text ++ ")")

/-- The error of an answer that breaks off. -/
def tornBody : HttpError :=
  .transport "error decoding response body"

/-- The characters of header names. -/
def isTokenChar (c : Char) : Bool :=
  c.isAlphanum || "!#$%&'*+-.^_|~".toList.contains c || c == Char.ofNat 0x60

/-- Whether a text may be the name of a header. -/
def isHeaderName (name : String) : Bool :=
  name != "" && name.toList.all isTokenChar

/-- Whether a text may be the value of a header: no control characters but the
tab. -/
def isHeaderValue (value : String) : Bool :=
  value.toList.all fun c => (0x20 ≤ c.toNat && c.toNat != 0x7F) || c == '\t'

/-- The address without user name and password, which travel in a header. -/
def withoutUserinfo (url : Url) : Url :=
  { url with username := "", password := "" }

/-- Whether a host can stand in a request: names of domains may hold characters
that requests may not. -/
def isSendableHost (url : Url) : Bool :=
  match url.host with
  | some host => !host.text.toList.any fun c =>
      ['"', '{', '}', Char.ofNat 0x60].contains c
  | none => false

/-- Whether the scheme of an address is one of the web. -/
def isWebScheme (scheme : String) : Bool :=
  scheme == "http" || scheme == "https"

/-- The headers of a request in the form in which they travel. -/
def wireHeaders (request : HttpRequest) (body : Option String) : Dict String :=
  let own := request.headers.entries.map fun (name, value) =>
    (String.ofList (name.toList.map Char.toLower), value.trimmed)
  match body with
  | none => .ofList own
  | some text =>
      .ofList ([("content-type", "application/json"),
        ("content-length", Numeral.text text.utf8ByteSize)] ++ own)

/-- What is sent for a request, and where to. -/
def prepare (base : Option Url) (request : HttpRequest) : Except HttpError (Url × WireRequest) := do
  let url ← resolve base request.url
  if url.host.isNone then throw (unbuiltFor url)
  let url := withoutUserinfo url
  if !request.headers.entries.all fun (name, value) => isHeaderName name && isHeaderValue value then
    throw unbuilt
  if !(isWebScheme url.scheme && isSendableHost url) then throw (unbuiltFor url)
  let body := request.body.map Json.compact
  return (url, {
    method := request.method
    target := url.pathText ++ url.queryText
    headers := wireHeaders request body
    body := body.getD "" })

/-- The value of a body: a document if it is one, and else its text; null where
there is nothing. -/
def decodeBody (text : String) : Json :=
  if text.isBlank then .null
  else match Json.parse text with
    | .ok j => j
    | .error _ => .str text

/-- Whether an answer with a status never has a body. -/
def isBodiless (status : Nat) : Bool :=
  status < 200 || status == 204 || status == 304

/-- The reply that an answer stands for. -/
def receive (url : Url) (answer : WireReply) : HttpReply :=
  if answer.status < 200 ∧ answer.status ≠ 101 then .error (unsent url)
  else if ¬ isBodiless answer.status ∧ answer.missing ≠ 0 then .error tornBody
  else
    let data := if isBodiless answer.status then .null else decodeBody answer.text
    if 200 ≤ answer.status ∧ answer.status < 300 then .ok { status := answer.status, data }
    else .error (.status answer.status data)

/-- Sends a request to a server that answers, or that cannot be reached: what the
server received, and the reply. -/
def exchange (base : Option Url) (request : HttpRequest) (answer : Option WireReply) :
    Option WireRequest × HttpReply :=
  match prepare base request with
  | .error error => (none, .error error)
  | .ok (url, wire) =>
      match answer with
      | some answer =>
          if url.scheme = "http" then (some wire, receive url answer) else (none, .error (unsent url))
      | none => (none, .error (unsent url))

end HttpClient

end LivePage
