import LivePage.Text.Blank
import LivePage.Text.Quoted
import LivePage.Url.Parser

/-!
# Routes

Targets of navigation are brought into one form: an absolute address stays as it
is, and everything else becomes a path from the root with single slashes, under
the locale of the page unless it already begins with a locale.
-/

namespace LivePage

/-- The locales that routes are written with. -/
structure Routes where
  /-- The locale put in front of routes. -/
  locale : Option String := none
  /-- The locales that a route may already begin with. -/
  locales : List String := []
deriving DecidableEq, Repr, Inhabited

namespace Routes

/-- Whether a text leads out of the page: it begins with two slashes, or it is an
address that has a path of segments, or one for mail or telephone. -/
def isAbsolute (cs : List Char) : Bool :=
  ['/', '/'].isPrefixOf cs ||
    match Url.parse (String.ofList cs) with
    | .ok url => !url.isRootless || url.scheme == "mailto" || url.scheme == "tel"
    | .error _ => false

/-- The non-empty segments of a path, after one leading `./`. -/
def segments (path : List Char) : List (List Char) :=
  let path := match path with
    | '.' :: '/' :: path => path
    | path => path
  (Text.splitAt '/' path).filter (· ≠ [])

/-- The locale to put in front of some segments: none if they begin with it or
with another known one. -/
def missingLocale (routes : Routes) (segments : List (List Char)) : Option String :=
  routes.locale.filter fun locale =>
    !(segments.head?.any fun first => (locale :: routes.locales).any (·.toList == first))

/-- The path that some segments make. -/
def join (segments : List (List Char)) : List Char :=
  if segments = [] then ['/'] else segments.flatMap ('/' :: ·)

/-- The one form of a target of navigation. -/
def normalize (routes : Routes) (raw : String) : String :=
  let cs := Text.trim raw.toList
  if isAbsolute cs then String.ofList cs
  else
    let (path, tail) := cs.span fun c => c != '?' && c != '#'
    let segments := segments path
    let front := (routes.missingLocale segments).toList.map String.toList
    String.ofList (join (front ++ segments) ++ tail)

/-- The locales as log lines show them. -/
def described (routes : Routes) : String :=
  "UrlNormalizer \x7b locale: " ++ Text.showOption Text.quote routes.locale ++ ", locales: " ++
    Text.showList Text.quote routes.locales ++ " \x7d"

end Routes

end LivePage
