import LivePage.Http.Message
import LivePage.Run.Script

/-!
# Outcomes

How actions end, and what a run over a list of actions leaves: the outcomes of
the actions it waited for, and the tasks it started and did not wait for.
-/

namespace LivePage

/-- Why an action failed. -/
inductive ActionFault where
  /-- The action stands deeper in branches than the limit allows. -/
  | tooDeep (limit : Nat)
  | unknownKind
  | request (error : HttpError)
  /-- The task that ran the action was aborted. -/
  | aborted (task : TaskId)
deriving Repr, Inhabited

namespace ActionFault

def message : ActionFault → String
  | tooDeep limit => "Maximum action nesting depth (" ++ Numeral.text limit ++ ") exceeded"
  | unknownKind => "Unknown action type"
  | request error => error.message
  | aborted task => "detached action aborted: task " ++ Numeral.text task ++ " was cancelled"

end ActionFault

/-- How an action ends; only requests give an answer. -/
inductive Outcome where
  | success (answer : Option HttpResponse)
  | failure (fault : ActionFault)
deriving Repr, Inhabited

namespace Outcome

def succeeded : Outcome → Bool
  | success _ => true
  | failure _ => false

/-- The answer that a successful request gave. -/
def answer? : Outcome → Option HttpResponse
  | success answer => answer
  | failure _ => none

def encode : Outcome → Json
  | success none => .ofMembers [("success", .bool true)]
  | success (some answer) =>
      .ofMembers [("success", .bool true), ("data", answer.data), ("status", .ofNat answer.status)]
  | failure fault => .ofMembers [("success", .bool false), ("error", .str fault.message)]

end Outcome

/-- What a run over a list of actions leaves. -/
structure Run where
  /-- False only where an action failed without a branch for failures. -/
  success : Bool := true
  /-- The outcomes of the actions that the run waited for, in order. -/
  outcomes : List Outcome := []
  /-- The tasks of the detached actions, in order. -/
  detached : List TaskId := []
deriving Inhabited

/-- What the next action sees after an outcome: the answer, if there is one. -/
def Context.after (context : Context) (outcome : Outcome) : Context :=
  match outcome.answer? with
  | some answer => context.withResponse (.ok answer.data (some answer.status))
  | none => context

end LivePage
