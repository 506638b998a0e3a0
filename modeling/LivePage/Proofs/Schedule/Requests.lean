import LivePage.Proofs.Schedule.Fifo
import LivePage.Proofs.Schedule.TriggerData

/-!
# Requests to a session

What a live page can be asked for: to load, to handle a trigger record, and to handle a
document that should be one.  Requests are served one after the other in the foreground, and
what one request leaves behind, tasks in the background as well, is there for the next.
-/

namespace LivePage

namespace Session

/-- Something that a session is asked for. -/
inductive Request where
  | load
  | dispatch (record : TriggerRecord)
  | dispatchValue (raw : Json)

/-- What comes of a request. -/
inductive Reply where
  | loaded (runs : List (String × Run))
  | dispatched (result : Except DispatchError (Option Run))

def serve (session : Session) : Request → Script Reply
  | .load => .loaded <$> session.load
  | .dispatch record => .dispatched <$> session.dispatch record
  | .dispatchValue raw => .dispatched <$> session.dispatchValue raw

/-- Serves requests one after the other, as one script. -/
def serveAll (session : Session) : List Request → Script (List Reply)
  | [] => pure []
  | request :: rest => do
      let reply ← session.serve request
      let replies ← session.serveAll rest
      pure (reply :: replies)

/-- Sessions that serve the requests by the same scripts serve the sequence alike. -/
theorem serveAll_congr {session other : Session} {requests : List Request}
    (hserve : ∀ request ∈ requests, session.serve request = other.serve request) :
    session.serveAll requests = other.serveAll requests := by
  induction requests with
  | nil => rfl
  | cons request rest ih =>
      obtain ⟨hfirst, hrest⟩ := List.forall_mem_cons.1 hserve
      rw [serveAll, serveAll, hfirst, ih hrest]

end Session

namespace Machine

variable {σ : Type}

/-- Serves requests one after the other, each in the foreground. -/
def serve (setting : Setting σ) (session : Session) :
    List Session.Request → Machine σ → List Session.Reply × Machine σ
  | [], machine => ([], machine)
  | request :: rest, machine =>
      let (reply, machine) := machine.run setting (session.serve request)
      let (replies, machine) := serve setting session rest machine
      (reply :: replies, machine)

/-- As one script the requests are served alike. -/
theorem run_serveAll (setting : Setting σ) (session : Session)
    (requests : List Session.Request) (machine : Machine σ) :
    machine.run setting (session.serveAll requests) = machine.serve setting session requests := by
  induction requests generalizing machine with
  | nil => rfl
  | cons request rest ih =>
      rw [Session.serveAll, serve, Script.bind_eq, run_bind, Script.bind_eq, run_bind, ih]
      rfl

theorem serve_append (setting : Setting σ) (session : Session)
    (before behind : List Session.Request) (machine : Machine σ) :
    machine.serve setting session (before ++ behind) =
      ((machine.serve setting session before).1 ++
          ((machine.serve setting session before).2.serve setting session behind).1,
        ((machine.serve setting session before).2.serve setting session behind).2) := by
  induction before generalizing machine with
  | nil => rfl
  | cons request rest ih => simp only [List.cons_append, serve, ih]

end Machine

end LivePage
