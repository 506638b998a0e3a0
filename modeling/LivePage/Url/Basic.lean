import LivePage.Url.Host

/-!
# Addresses

An absolute address: a scheme, who is asked at which host and port, a path, a
query and a fragment.  The path is a list of segments, or, for addresses such as
`mailto:a@b.c`, a text that nothing can be resolved against.
-/

namespace LivePage

namespace Url

/-- The path of an address. -/
inductive Route where
  /-- Segments, each behind a slash. -/
  | rooted (segments : List String)
  /-- A text without segments. -/
  | rootless (text : String)
deriving DecidableEq, Repr, Inhabited

end Url

/-- An absolute address. -/
structure Url where
  scheme : String
  username : String := ""
  password : String := ""
  host : Option Url.Host := none
  /-- The port, unless it is the usual one of the scheme. -/
  port : Option Nat := none
  path : Url.Route := .rooted []
  query : Option String := none
  fragment : Option String := none
deriving DecidableEq, Repr, Inhabited

namespace Url

def defaultPort? : String → Option Nat
  | "http" => some 80
  | "https" => some 443
  | "ws" => some 80
  | "wss" => some 443
  | "ftp" => some 21
  | _ => none

/-- Whether addresses of a scheme always have a host and a path. -/
def isSpecial (scheme : String) : Bool :=
  scheme == "file" || (defaultPort? scheme).isSome

/-- Whether nothing can be resolved against an address. -/
def isRootless (url : Url) : Bool :=
  match url.path with
  | .rootless _ => true
  | .rooted _ => false

def segments (url : Url) : List String :=
  match url.path with
  | .rooted segments => segments
  | .rootless _ => []

/-- Who is asked, in front of the host. -/
def userinfoText (url : Url) : String :=
  if url.username == "" && url.password == "" then ""
  else url.username ++ (if url.password == "" then "" else ":" ++ url.password) ++ "@"

/-- Everything between the scheme and the path.  Without a host, a path that
begins with an empty segment is marked so that it is not taken for one. -/
def authorityText (url : Url) : String :=
  match url.host with
  | some host =>
      "//" ++ url.userinfoText ++ host.text ++
        (url.port.map fun port => ":" ++ Numeral.text port).getD ""
  | none =>
      if url.scheme == "file" then "//"
      else match url.segments with
        | "" :: _ :: _ => "/."
        | _ => ""

def pathText (url : Url) : String :=
  match url.path with
  | .rooted segments => String.join (segments.map ("/" ++ ·))
  | .rootless text => text

def queryText (url : Url) : String :=
  (url.query.map ("?" ++ ·)).getD ""

def fragmentText (url : Url) : String :=
  (url.fragment.map ("#" ++ ·)).getD ""

def text (url : Url) : String :=
  url.scheme ++ ":" ++ url.authorityText ++ url.pathText ++ url.queryText ++ url.fragmentText

end Url

end LivePage
