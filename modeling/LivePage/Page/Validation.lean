import LivePage.Log.Record
import LivePage.Page.Definition
import LivePage.Url.Parser

/-!
# Validation of pages

What a page has to satisfy besides its shape: settings stay within bounds, the
base address is absolute, and ids of components are not blank.  Several bindings
for one trigger of a component are allowed, but only the first is ever fired, so
each of the others gives a warning.
-/

namespace LivePage

/-- A bound that a number breaks. -/
inductive Bound where
  | atLeast (limit : Nat)
  | atMost (limit : Nat)
deriving DecidableEq, Repr

/-- Why a page is refused. -/
inductive PageFault where
  /-- Settings, by the names under which they are reported, and their broken
  bounds. -/
  | settings (broken : List (String × Bound))
  | baseUrl (text : String) (error : UrlError)
  | blankId
deriving DecidableEq, Repr

namespace Bound

/-- Whether a number keeps a bound. -/
def holds (n : Nat) : Bound → Bool
  | atLeast limit => limit ≤ n
  | atMost limit => n ≤ limit

/-- The wording of a broken bound. -/
def message : Bound → String
  | atLeast limit => "The number must be `>= " ++ Numeral.text limit ++ "`."
  | atMost limit => "The number must be `<= " ++ Numeral.text limit ++ "`."

end Bound

namespace PageFault

def settingText (broken : String × Bound) : String :=
  Json.escape broken.1 ++ ":\x7b\"errors\":[" ++ Json.escape broken.2.message ++ "]\x7d"

/-- The report on some settings, in the order of the settings. -/
def settingsText (broken : List (String × Bound)) : String :=
  "\x7b\"errors\":[],\"properties\":\x7b\"settings\":\x7b\"errors\":[],\"properties\":\x7b" ++
    ",".intercalate (broken.map settingText) ++ "\x7d\x7d\x7d\x7d"

def message : PageFault → String
  | settings broken => "Invalid page settings: " ++ settingsText broken
  | baseUrl text _ => "Invalid baseUrl '" ++ text ++ "'"
  | blankId => "Component ids must not be empty"

/-- The error behind a fault. -/
def cause? : PageFault → Option String
  | baseUrl _ error => some error.message
  | _ => none

end PageFault

namespace Settings

def depthBounds : List Bound :=
  [.atLeast 1, .atMost 1024]

def toastBounds : List Bound :=
  [.atLeast 1]

/-- The bounds that settings break.  The depth and the duration are reported
under the names of their rules of default and of omission. -/
def broken (settings : Settings) : List (String × Bound) :=
  (depthBounds.filter (!·.holds settings.maxDepth)).map ("default_max_depth", ·) ++
    (settings.defaultToastMs.toList.flatMap fun ms =>
      (toastBounds.filter (!·.holds ms)).map ("Option::is_none", ·))

end Settings

namespace Component

/-- The triggers of some bindings that are bound before, in declared order. -/
def repeatedTriggers (seen : List Trigger) : List Binding → List Trigger
  | [] => []
  | binding :: rest =>
      if seen.contains binding.trigger then binding.trigger :: repeatedTriggers seen rest
      else repeatedTriggers (binding.trigger :: seen) rest

end Component

namespace Page

def neverFired (component : String) (trigger : Trigger) : LogRecord where
  level := .warn
  target := "pageflow::config"
  message := "Several events declared for one trigger; only the first is dispatched"
  fields := [("component", .shown component), ("trigger", .text trigger.name)]

def warningsOf (components : List (String × Component)) : Log :=
  components.flatMap fun (id, component) =>
    (Component.repeatedTriggers [] component.bindings).map (neverFired id)

def settingsFault? (page : Page) : Option PageFault :=
  let broken := page.settings.broken
  if broken.isEmpty then
    page.settings.baseUrl.bind fun text =>
      match Url.parse text with
      | .ok _ => none
      | .error error => some (.baseUrl text error)
  else some (.settings broken)

/-- Validates a page: the warnings on the components up to the first fault, and
that fault. -/
def validate (page : Page) : Log × Option PageFault :=
  match page.settingsFault? with
  | some fault => ([], some fault)
  | none =>
      let entries := page.components.entries
      let named := entries.takeWhile fun (id, _) => !id.isBlank
      (warningsOf named, if named.length < entries.length then some .blankId else none)

/-- The warnings about the components of a page. -/
def warnings (page : Page) : Log :=
  page.validate.1

end Page

end LivePage
