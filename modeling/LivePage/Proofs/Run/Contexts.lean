import LivePage.Proofs.Run.Account

/-!
# Contexts of runs

What the actions of a run see of the page.  Every action of a run, also one in a branch or in a
task, is run in a context that differs from the one of the whole run in its response alone: the
event, the form, the route, the user and the values of the components are as they were when the
run began.
-/

namespace LivePage

/-- What a context shows besides the response. -/
def Context.withoutResponse (context : Context) : Context :=
  { context with response := none }

theorem Context.withoutResponse_after (context : Context) (outcome : Outcome) :
    (context.after outcome).withoutResponse = context.withoutResponse := by
  rw [after]
  split <;> rfl

namespace Engine

mutual

/-- An action and its branches see what the context of the action shows. -/
theorem ActionAccount.withoutResponse_eq {engine : Engine} {place : Place} {depth : Nat}
    {context : Context} {action : Action} {task : Option TaskId} {entries : List Entry}
    {outcome : Outcome}
    (haccount : engine.ActionAccount place depth context action task entries outcome) :
    ∀ entry ∈ entries, entry.context.withoutResponse = context.withoutResponse := by
  match action with
  | ⟨kind, condition, delay, detached, onSuccess, onError⟩ =>
    cases haccount with
    | answered _ hbranch | refused _ hbranch =>
        exact List.forall_mem_cons.2 ⟨rfl, hbranch.withoutResponse_eq⟩
    | plain => exact List.forall_mem_singleton.2 rfl
termination_by structural action

theorem BranchAccount.withoutResponse_eq {engine : Engine} {place : Place} {depth : Nat}
    {context : Context} {actions : Option (List Action)} {entries : List Entry}
    (haccount : engine.BranchAccount place depth context actions entries) :
    ∀ entry ∈ entries, entry.context.withoutResponse = context.withoutResponse := by
  match actions with
  | none =>
      cases haccount
      simp
  | some actions =>
      cases haccount with
      | present hlist => exact hlist.withoutResponse_eq
termination_by structural actions

/-- The actions of a list and their branches see what the context of the list shows. -/
theorem ListAccount.withoutResponse_eq {engine : Engine} {place : Place} {index depth : Nat}
    {context : Context} {actions : List Action} {entries : List Entry} {run : Run}
    (haccount : engine.ListAccount place index depth context actions entries run) :
    ∀ entry ∈ entries, entry.context.withoutResponse = context.withoutResponse := by
  match actions with
  | [] =>
      cases haccount
      simp
  | action :: rest =>
      cases haccount with
      | started _ hown hrest =>
          exact List.forall_mem_append.2 ⟨hown.withoutResponse_eq, hrest.withoutResponse_eq⟩
      | givenUp _ hown => exact hown.withoutResponse_eq
      | @awaited _ _ _ _ _ _ _ _ outcome _ _ hown _ hrest =>
          have hlater := hrest.withoutResponse_eq
          rw [context.withoutResponse_after] at hlater
          exact List.forall_mem_append.2 ⟨hown.withoutResponse_eq, hlater⟩
termination_by structural actions

end

end Engine

end LivePage
