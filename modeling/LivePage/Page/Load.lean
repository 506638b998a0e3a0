import LivePage.Page.Validation

/-!
# Loading pages

Pages come as text: given as such, from a reader, or from a file.  The ways
differ in the wording of their errors only.
-/

namespace LivePage

/-- Where the text of a page comes from. -/
inductive PageOrigin where
  | text
  | reader
  /-- A file that is opened and then read. -/
  | openedFile (path : String)
  /-- A file that is read at once. -/
  | file (path : String)
deriving DecidableEq, Repr

/-- Why a page does not load. -/
inductive LoadError where
  | unreadable (origin : PageOrigin) (reason : String)
  | unparsed (origin : PageOrigin) (fault : Json.Fault)
  | invalid (fault : PageFault)
deriving DecidableEq, Repr

namespace LoadError

/-- What the system says of a file that is not there. -/
def noSuchFile : String := "No such file or directory (os error 2)"

def message : LoadError → String
  | unreadable (.openedFile path) _ => "Failed to open page file " ++ path
  | unreadable (.file path) _ => "Failed to read page file " ++ path
  | unreadable _ _ => "Failed to read page"
  | unparsed .text _ => "Failed to parse JSON page definition string"
  | unparsed .reader _ => "Failed to parse JSON page definition from reader"
  | unparsed (.openedFile _) _ => "Failed to parse JSON page definition from reader"
  | unparsed (.file path) _ => "Failed to parse JSON page definition from " ++ path
  | invalid fault => fault.message

/-- The error behind an error, as far as it has a wording of its own. -/
def cause? : LoadError → Option String
  | unreadable _ reason => some reason
  | unparsed _ _ => none
  | invalid fault => fault.cause?

end LoadError

namespace Page

def ofText (origin : PageOrigin) (text : String) : Except LoadError Page :=
  match Json.read Page.shape text with
  | .error fault => .error (.unparsed origin fault)
  | .ok j =>
      match Page.decode? j with
      | some page => .ok page
      | none => .error (.unparsed origin .mismatch)

/-- Validates a page: what is logged, and the page if nothing is wrong. -/
def checked (page : Page) : Log × Except LoadError Page :=
  match page.validate with
  | (warnings, none) => (warnings, .ok page)
  | (warnings, some fault) => (warnings, .error (.invalid fault))

/-- Reads and validates the text of a page, if there is one. -/
def load (origin : PageOrigin) (text : Option String) : Log × Except LoadError Page :=
  match text with
  | none => ([], .error (.unreadable origin LoadError.noSuchFile))
  | some text =>
      match ofText origin text with
      | .error error => ([], .error error)
      | .ok page => page.checked

end Page

end LivePage
