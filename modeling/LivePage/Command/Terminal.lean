import LivePage.Console
import LivePage.Http.Client
import LivePage.Modal.Bus
import LivePage.Schedule.World

/-!
# Terminal

The surroundings of a page that runs in a terminal.  Everything that the page
asks for is logged.  In a dry run requests are answered at once without being
sent; else they are built and fail to connect.  One host listens on the modal
bus and logs its events whenever the page waits.
-/

namespace LivePage

/-- The state of the surroundings. -/
structure Terminal where
  log : Log := []
  bus : ModalBus := ModalBus.ofCapacity ModalBus.usualCapacity
deriving Inhabited

namespace Terminal

def modalHost : String := "terminal"

def initial : Terminal :=
  { bus := (ModalBus.ofCapacity ModalBus.usualCapacity).subscribe modalHost }

def write (terminal : Terminal) (record : LogRecord) : Terminal :=
  { terminal with log := terminal.log ++ [record] }

/-- How long it takes until a connection is refused, in milliseconds. -/
def refusalMs : Nat := 1

/-- Answers a request in a dry run. -/
def answerDry (request : HttpRequest) (terminal : Terminal) : Answer × Terminal :=
  ({ reply := Console.dryReply }, terminal.write (Console.dryRun request))

/-- Answers a request that is to be sent: where it can be built, the connection
is refused. -/
def answerUnsent (base : Option Url) (request : HttpRequest) (terminal : Terminal) :
    Answer × Terminal :=
  let terminal := match HttpClient.resolve base request.url with
    | .ok url => terminal.write (Console.sending request.method url.text)
    | .error _ => terminal
  let delay := match HttpClient.prepare base request with
    | .ok _ => refusalMs
    | .error _ => 0
  ({ delay, reply := (HttpClient.exchange base request none).2 }, terminal)

/-- Does what the page asks for. -/
def call (call : Call) (terminal : Terminal) : Terminal :=
  match call with
  | .toast kind message title duration => terminal.write (Console.toast kind message title duration)
  | .push url => terminal.write (Console.pushed url)
  | .openTab url => terminal.write (Console.opened url)
  | .modal event =>
      { terminal.write Console.published with bus := terminal.bus.publish event }

/-- The record of something that came over the modal bus. -/
def receiptRecord? : ModalReceipt → Option LogRecord
  | .event event => some (Console.modal event)
  | .lagged lost => some (Console.lagged lost)
  | .nothing => none

/-- Logs what came over the modal bus. -/
def logModals (terminal : Terminal) : Terminal :=
  let (receipts, bus) := terminal.bus.drain modalHost
  { terminal with log := terminal.log ++ receipts.filterMap receiptRecord?, bus }

theorem logModals_logModals (terminal : Terminal) :
    terminal.logModals.logModals = terminal.logModals := by
  have hdrained := terminal.bus.drain_drain modalHost
  simp only [logModals, hdrained, List.filterMap_nil, List.append_nil]

/-- The terminal as the surroundings of a page. -/
def host (dryRun : Bool) (base : Option Url) : Host Terminal where
  answer := fun _ request terminal =>
    if dryRun then answerDry request terminal else answerUnsent base request terminal
  call := call
  notify := fun _ terminal => terminal
  rest := logModals
  rest_rest := logModals_logModals

end Terminal

end LivePage
