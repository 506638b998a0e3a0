import LivePage.Http.Message
import LivePage.Log.Record
import LivePage.Modal.Event
import LivePage.Routes
import LivePage.Run.Script

/-!
# Console

The surroundings of a page that is run without a user interface: what it asks
for is logged instead of done.  Every part of the surroundings has a target of
its own in the log.
-/

namespace LivePage.Console

def navigation : String := "pageflow::navigate"

def toasts : String := "pageflow::toast"

def requests : String := "pageflow::http"

def modals : String := "pageflow::modal"

def toastLevel : ToastKind → LogLevel
  | .success => .info
  | .error => .error
  | .warning => .warn
  | .info => .info

/-- The record of a route change. -/
def pushed (url : String) : LogRecord where
  level := .info
  target := navigation
  message := "Route push"
  fields := [("url", .shown url)]

/-- The record of a new tab. -/
def opened (url : String) : LogRecord where
  level := .info
  target := navigation
  message := "Open in new tab"
  fields := [("url", .shown url)]

def toast (kind : ToastKind) (message : String) (title : Option String)
    (duration : Option Nat) : LogRecord where
  level := toastLevel kind
  target := toasts
  message := message
  fields := [("kind", .text kind.name), ("title", .shown (Text.showOption Text.quote title)),
    ("duration", .shown (Text.showOption durationText duration))]

/-- The record of a request that is not sent. -/
def dryRun (request : HttpRequest) : LogRecord where
  level := .info
  target := requests
  message := "DRY-RUN request"
  fields := [("method", .text request.method.name), ("url", .shown request.url),
    ("body", .shown (Text.showOption Json.described request.body))]

/-- The reply to a request that is not sent. -/
def dryReply : HttpReply :=
  .ok { status := 200 }

/-- The record of a request that is sent. -/
def sending (method : HttpMethod) (url : String) : LogRecord where
  level := .debug
  target := requests
  message := "Sending request"
  fields := [("method", .text method.name), ("url", .shown url)]

/-- The record of a modal event on the bus. -/
def published : LogRecord where
  level := .trace
  target := modals
  message := "Modal event published"
  fields := [("receivers", .shown "1")]

def modal (event : ModalEvent) : LogRecord where
  level := .info
  target := modals
  message := "Modal request"
  fields := [("event", .shown event.described)]

/-- The record of lost modal events. -/
def lagged (lost : Nat) : LogRecord where
  level := .warn
  target := modals
  message := "Modal logger lagged"
  fields := [("skipped", .shown (Numeral.text lost))]

/-- The surroundings as log lines show them. -/
def described (routes : Routes) : String :=
  "Services \x7b modals: ModalBus \x7b sender: broadcast::Sender \x7d, urls: " ++
    routes.described ++ ", .. \x7d"

end LivePage.Console
