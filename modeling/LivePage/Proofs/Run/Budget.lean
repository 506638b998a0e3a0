import LivePage.Proofs.Run.Sequence

/-!
# Budgets

How often a run can wait.  Every wait costs one unit, and every action that is
started as a task costs three, which are its turn, its delay and its reply; three
units for every action of a tree pay for the whole tree.
-/

namespace LivePage

/-- What an act costs. -/
def Act.cost : Act → Nat
  | paused _ => 1
  | asked .. => 1
  | started job _ => 3 * job.action.size
  | _ => 0

/-- What some acts cost. -/
def Act.costs : List Act → Nat
  | [] => 0
  | act :: rest => act.cost + costs rest

@[simp]
theorem Act.costs_append (first second : List Act) :
    costs (first ++ second) = costs first + costs second := by
  induction first with
  | nil => exact (Nat.zero_add (costs second)).symm
  | cons act rest ih => rw [List.cons_append, costs, costs, ih, Nat.add_assoc]

theorem Act.costs_performed (effects : List Effect) : costs (effects.map performed) = 0 := by
  induction effects with
  | nil => rfl
  | cons effect rest ih =>
      rw [List.map_cons, costs, ih]
      rfl

theorem Action.size_pos (action : Action) : 0 < action.size := by
  obtain ⟨kind, condition, delay, detached, onSuccess, onError⟩ := action
  rw [size]
  omega

namespace Script

/-- No walk through the script costs more than the budget. -/
def Within (s : Script α) (budget : Nat) : Prop :=
  ∀ acts result, Walk s acts result → Act.costs acts ≤ budget

theorem within_done (a : α) (budget : Nat) : (done a).Within budget := by
  intro acts result hwalk
  rw [(walk_done_iff.1 hwalk).1]
  exact Nat.zero_le budget

/-- A larger budget does as well. -/
theorem Within.mono {s : Script α} {budget larger : Nat} (hwithin : s.Within budget)
    (hle : budget ≤ larger) : s.Within larger :=
  fun acts result hwalk => Nat.le_trans (hwithin acts result hwalk) hle

/-- The budgets of two scripts together pay for one behind the other. -/
theorem Within.bind {s : Script α} {f : α → Script β} {first second : Nat}
    (hfirst : s.Within first) (hsecond : ∀ a, (f a).Within second) :
    (s.bind f).Within (first + second) := by
  intro acts result hwalk
  obtain ⟨one, middle, other, rfl, hone, hother⟩ := walk_bind_iff.1 hwalk
  rw [Act.costs_append]
  exact Nat.add_le_add (hfirst one middle hone) (hsecond middle other result hother)

/-- What is made of the result of a script costs nothing. -/
theorem Within.map {s : Script α} {f : α → β} {budget : Nat} (hwithin : s.Within budget) :
    (s.bind fun a => .done (f a)).Within budget :=
  hwithin.bind fun a => within_done (f a) 0

/-- The part of a script that is left has the part of the budget that is left. -/
theorem Within.of_leads {s rest : Script α} {acts : List Act} {budget : Nat}
    (hwithin : s.Within budget) (hleads : Leads s acts rest) :
    Act.costs acts ≤ budget ∧ rest.Within (budget - Act.costs acts) := by
  have hwhole (later : List Act) (result : α) (hwalk : Walk rest later result) :
      Act.costs acts + Act.costs later ≤ budget := by
    rw [← Act.costs_append]
    exact hwithin _ result (hleads.walk hwalk)
  obtain ⟨later, result, hwalk⟩ := exists_walk rest
  refine ⟨Nat.le_trans (Nat.le_add_right ..) (hwhole later result hwalk), ?_⟩
  intro later result hwalk
  exact Nat.le_sub_of_add_le' (hwhole later result hwalk)

end Script

namespace Engine

/-- An attempt waits for its delay and for its reply. -/
theorem within_attempt (engine : Engine) (depth : Nat) (context : Context) (action : Action) :
    (engine.attempt depth context action).Within 2 := by
  intro acts result hwalk
  have hwaited (ms : Nat) : Act.costs (Script.waited ms) ≤ 1 := by
    rw [Script.waited]
    split <;> simp [Act.costs, Act.cost]
  cases walk_attempt_iff.1 hwalk with
  | tooDeep | skipped => exact Nat.zero_le 2
  | asked =>
      rw [Act.costs_append]
      exact Nat.add_le_add (hwaited _) (Nat.le_refl 1)
  | performed =>
      rw [Act.costs_append, Act.costs_performed]
      exact Nat.le_trans (hwaited _) (Nat.le_succ 1)

mutual

/-- The budget of an action that has its turn. -/
theorem within_runAction (engine : Engine) (depth : Nat) (context : Context) (action : Action) :
    (engine.runAction depth context action).Within (3 * action.size - 1) := by
  match action with
  | ⟨kind, condition, delay, detached, onSuccess, onError⟩ =>
    have hsuccess := fun context => within_runBranch engine (depth + 1) context onSuccess
    have herror := fun context => within_runBranch engine (depth + 1) context onError
    have hbudget : 3 * Action.size ⟨kind, condition, delay, detached, onSuccess, onError⟩ - 1 =
        2 + (3 * Action.branchSize onSuccess + 3 * Action.branchSize onError) := by
      rw [Action.size]
      omega
    rw [runAction_eq, hbudget]
    apply (engine.within_attempt depth context _).bind
    intro outcome
    apply Script.Within.map
    match outcome with
    | .success (some answer) => exact (hsuccess _).mono (Nat.le_add_right ..)
    | .failure (.request error) => exact (herror _).mono (Nat.le_add_left ..)
    | .success none | .failure (.tooDeep _) | .failure .unknownKind | .failure (.aborted _) =>
        exact Script.within_done () _
termination_by structural action

theorem within_runBranch (engine : Engine) (depth : Nat) (context : Context)
    (actions : Option (List Action)) :
    (engine.runBranch depth context actions).Within (3 * Action.branchSize actions) := by
  match actions with
  | none => exact Script.within_done () _
  | some actions =>
      have hlist := within_runList engine depth context actions
      exact hlist.map
termination_by structural actions

theorem within_runList (engine : Engine) (depth : Nat) (context : Context)
    (actions : List Action) :
    (engine.runList depth context actions).Within (3 * Action.listSize actions) := by
  match actions with
  | [] =>
      rw [runList_nil]
      exact Script.within_done _ _
  | action :: rest =>
      have haction := within_runAction engine depth context action
      have hrest := fun context => within_runList engine depth context rest
      rw [Action.listSize, Nat.mul_add]
      cases hdetached : action.detached with
      | true =>
          rw [runList_detached _ _ _ _ hdetached]
          intro acts result hwalk
          obtain ⟨task, later, rfl, hlater⟩ := Script.walk_start_iff.1 hwalk
          exact Nat.add_le_add_left ((hrest context).map later result hlater) _
      | false =>
          rw [runList_awaited _ _ _ _ hdetached]
          apply (haction.mono (Nat.sub_le ..)).bind
          intro outcome
          split
          · exact Script.within_done _ _
          · exact (hrest _).map
termination_by structural actions

end

end Engine

end LivePage
