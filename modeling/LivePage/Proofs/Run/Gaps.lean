import Mathlib.Data.List.Forall2
import LivePage.Proofs.Run.Course
import LivePage.Proofs.Run.Shedding

/-!
# Gaps in trees of actions

A gap is a place between the actions of a list, or of a list in one of the branches of
its actions, at any depth.  Of an action that stands in a gap and is skipped whenever a
run comes there nothing is seen but its outcome, and that only where the list of the gap
is the list that was run.  A branch for failures has one more meaning: an awaited action
that has one does not end its list, so an action that alone makes such a branch can be
left out only as long as the owner of the branch does not fail.
-/

namespace LivePage

/-- The two branches of an action. -/
inductive Side where
  | onSuccess
  | onError
deriving DecidableEq

/-- The branch that is run behind an outcome. -/
def Outcome.side? : Outcome → Option Side
  | .success (some _) => some .onSuccess
  | .failure (.request _) => some .onError
  | _ => none

namespace Action

/-- The action with another branch. -/
def withBranch (action : Action) (actions : Option (List Action)) : Side → Action
  | .onSuccess => { action with onSuccess := actions }
  | .onError => { action with onError := actions }

@[simp]
theorem detached_withBranch (action : Action) (actions : Option (List Action)) (side : Side) :
    (action.withBranch actions side).detached = action.detached := by
  cases side <;> rfl

theorem behind_withBranch (action : Action) (actions : List Action) (side : Side)
    (outcome : Outcome) :
    (action.withBranch (some actions) side).behind outcome =
      if outcome.side? = some side then actions else action.behind outcome := by
  match side, outcome with
  | .onSuccess, .success (some _) | .onError, .failure (.request _) => rfl
  | .onSuccess, .failure (.request _) | .onError, .success (some _) => rfl
  | .onSuccess, .success none | .onSuccess, .failure (.tooDeep _)
  | .onSuccess, .failure .unknownKind | .onSuccess, .failure (.aborted _)
  | .onError, .success none | .onError, .failure (.tooDeep _)
  | .onError, .failure .unknownKind | .onError, .failure (.aborted _) => rfl

/-- Another branch matters to the list of an action only where it is the one for
failures and one of the two is empty. -/
theorem isGivenUp_withBranch (action : Action) {first second : List Action} {side : Side}
    {outcome : Outcome}
    (hsame : side = .onError → outcome.succeeded = false → first.isEmpty = second.isEmpty) :
    (action.withBranch (some first) side).isGivenUp outcome =
      (action.withBranch (some second) side).isGivenUp outcome := by
  cases side with
  | onSuccess => rfl
  | onError =>
      cases hsucceeded : outcome.succeeded with
      | true => simp [isGivenUp, hsucceeded]
      | false => simp [isGivenUp, handlesErrors, withBranch, branch, hsame rfl hsucceeded]

end Action

namespace Engine

variable {engine : Engine}

/-- What an action does but for its branches does not depend on them. -/
theorem attempted_withBranch_iff {depth : Nat} {context : Context} {action : Action}
    {actions : Option (List Action)} {side : Side} {told : List Act} {outcome : Outcome} :
    engine.Attempted depth context (action.withBranch actions side) told outcome ↔
      engine.Attempted depth context action told outcome := by
  rw [← walk_attempt_iff, ← walk_attempt_iff]
  cases side <;> rfl

/-- A walk through an action is its attempt and then a walk through the actions behind
its outcome. -/
theorem walk_runAction_iff {depth : Nat} {context : Context} {action : Action} {acts : List Act}
    {outcome : Outcome} :
    Script.Walk (engine.runAction depth context action) acts outcome ↔
      ∃ told inner run, acts = told ++ inner ∧
        engine.Attempted depth context action told outcome ∧
        Script.Walk (engine.runList (depth + 1) (context.behind outcome) (action.behind outcome))
          inner run := by
  constructor
  · intro hwalk
    obtain ⟨told, inner, trials, rfl, hattempted, hcourse⟩ :=
      exists_course_action engine depth context action hwalk
    obtain ⟨run, hinner⟩ := hcourse.exists_walk
    exact ⟨told, inner, run, rfl, hattempted, hinner⟩
  · rintro ⟨told, inner, run, rfl, hattempted, hinner⟩
    exact hattempted.walk_runAction hinner

/-- A walk through two lists behind each other is given up in the first, or goes through
it and on through the second. -/
theorem walk_append_iff {depth : Nat} {context : Context} {first second : List Action}
    {acts : List Act} {run : Run} :
    Script.Walk (engine.runList depth context (first ++ second)) acts run ↔
      (run.success = false ∧ Script.Walk (engine.runList depth context first) acts run) ∨
      ∃ told later before behind, acts = told ++ later ∧ run = before.followedBy behind ∧
        Script.Walk (engine.runList depth context first) told before ∧ before.success = true ∧
        Script.Walk (engine.runList depth (context.afterAll before.outcomes) second) later
          behind := by
  rw [runList_append, Script.walk_bind_iff]
  constructor
  · rintro ⟨told, before, later, rfl, hfirst, hthen⟩
    cases hsuccess : before.success with
    | false =>
        rw [thenRun, hsuccess, if_neg Bool.false_ne_true] at hthen
        obtain ⟨rfl, rfl⟩ := Script.walk_done_iff.1 hthen
        exact .inl ⟨hsuccess, by rwa [List.append_nil]⟩
    | true =>
        rw [thenRun, hsuccess, if_pos rfl] at hthen
        obtain ⟨behind, hsecond, rfl⟩ := Script.walk_map_iff.1 hthen
        exact .inr ⟨told, later, before, behind, rfl, rfl, hfirst, hsuccess, hsecond⟩
  · rintro (⟨hsuccess, hfirst⟩ | ⟨told, later, before, behind, rfl, rfl, hfirst, hsuccess, hsecond⟩)
    · refine ⟨acts, run, [], (List.append_nil acts).symm, hfirst, ?_⟩
      rw [thenRun, hsuccess, if_neg Bool.false_ne_true]
      exact .done
    · refine ⟨told, before, later, rfl, hfirst, ?_⟩
      rw [thenRun, hsuccess, if_pos rfl]
      exact Script.walk_map_iff.2 ⟨behind, hsecond, rfl⟩

/-- A run goes through a whole list, and this is the context behind it. -/
def RunsThrough (engine : Engine) (depth : Nat) (context : Context) (actions : List Action)
    (acts : List Act) (after : Context) : Prop :=
  ∃ run, Script.Walk (engine.runList depth context actions) acts run ∧ run.success = true ∧
    after = context.afterAll run.outcomes

/-- There is an outcome for every awaited action that a run came to. -/
theorem length_outcomes_le {depth : Nat} {context : Context} {actions : List Action}
    {acts : List Act} {run : Run}
    (hwalk : Script.Walk (engine.runList depth context actions) acts run) :
    run.outcomes.length ≤ (Action.awaited actions).length ∧
      (run.success = true → run.outcomes.length = (Action.awaited actions).length) := by
  obtain ⟨reached, hreaches, -, -⟩ := exists_reached hwalk
  rw [hreaches.length_outcomes]
  refine ⟨(hreaches.initial.sublist.filter _).length_le, fun hsuccess => ?_⟩
  rw [hreaches.eq_of_success hsuccess]

/-- A skipped action leaves an outcome without an answer, and does nothing. -/
theorem walk_runList_skipped_iff {depth : Nat} {context : Context} {action : Action}
    {rest : List Action} {acts : List Act} {run : Run} (hawaited : action.detached = false)
    (hdepth : depth ≤ engine.maxDepth)
    (hskipped : Condition.allows action.condition context = false) :
    Script.Walk (engine.runList depth context (action :: rest)) acts run ↔
      ∃ later, Script.Walk (engine.runList depth context rest) acts later ∧
        later.afterOutcome (.success none) = run := by
  have hattempt : engine.attempt depth context action = .done (.success none) := by
    rw [attempt, if_neg (Nat.not_lt.2 hdepth), if_pos (by simpa using hskipped)]
  rw [runList_awaited _ _ _ _ hawaited, runAction_eq, hattempt]
  exact Script.walk_map_iff

/-- An action in front of a list can be replaced by one whose walks are related to its own and
end alike. -/
theorem exists_walk_cons {r : Act → Act → Prop} {depth : Nat} {context : Context}
    {action other : Action} {rest : List Action} {acts : List Act} {run : Run}
    (haction : action.detached = false) (hother : other.detached = false) (hrefl : ∀ act, r act act)
    (hreplace : ∀ own outcome, Script.Walk (engine.runAction depth context action) own outcome →
      own <+: acts → ∃ others, List.Forall₂ r own others ∧
        Script.Walk (engine.runAction depth context other) others outcome ∧
        action.isGivenUp outcome = other.isGivenUp outcome)
    (hwalk : Script.Walk (engine.runList depth context (action :: rest)) acts run) :
    ∃ others, List.Forall₂ r acts others ∧
      Script.Walk (engine.runList depth context (other :: rest)) others run := by
  cases walk_runList_iff.1 hwalk with
  | detached hdetached => simp [haction] at hdetached
  | givenUp _ hgivenUp hown =>
      obtain ⟨others, hrelated, hothers, hsame⟩ := hreplace _ _ hown (List.prefix_refl _)
      exact ⟨others, hrelated, ListWalk.walk (.givenUp hother (hsame ▸ hgivenUp) hothers)⟩
  | awaited _ hgoesOn hown hrest =>
      obtain ⟨others, hrelated, hothers, hsame⟩ := hreplace _ _ hown (List.prefix_append _ _)
      exact ⟨_, List.rel_append hrelated (List.forall₂_same.2 fun act _ => hrefl act),
        ListWalk.walk (.awaited hother (hsame ▸ hgoesOn) hothers hrest)⟩

end Engine

/-- A place between the actions of a list, or of a list in a branch of one of them. -/
inductive Gap where
  | here (before behind : List Action)
  | within (before : List Action) (owner : Action) (side : Side) (inner : Gap)
      (behind : List Action)

namespace Gap

/-- The list with some actions in the gap. -/
def fill (filling : List Action) : Gap → List Action
  | here before behind => before ++ (filling ++ behind)
  | within before owner side inner behind =>
      before ++ owner.withBranch (some (inner.fill filling)) side :: behind

/-- The first detached action on the way to a gap. -/
def detached? : Gap → Option (Action × Side × Gap)
  | here .. => none
  | within _ owner side inner _ =>
      if owner.detached then some (owner, side, inner) else inner.detached?

/-- A run without the outcome of what stands in a gap.  Nothing of a run over a branch is
kept, so there is such an outcome only in the list of the gap. -/
def cut (run : Run) : Gap → Run
  | here before _ =>
      { run with outcomes := run.outcomes.eraseIdx (Action.awaited before).length }
  | within .. => run

/-- The outcome of what stands in a gap, if the list of the gap is the one that was run. -/
def outcome? (run : Run) : Gap → Option Outcome
  | here before _ => run.outcomes[(Action.awaited before).length]?
  | within .. => none

/-- Acts of runs over a list with one thing or another in a gap: they are the same, or
they start the detached action around the gap. -/
inductive SameBut (gap : Gap) (filling other : List Action) : Act → Act → Prop where
  | same {act : Act} : SameBut gap filling other act act
  | started {owner : Action} {side : Side} {inner : Gap} {context : Context} {depth : Nat}
      {task : TaskId} :
      gap.detached? = some (owner, side, inner) →
      SameBut gap filling other
        (.started { action := owner.withBranch (some (inner.fill filling)) side, context, depth }
          task)
        (.started { action := owner.withBranch (some (inner.fill other)) side, context, depth }
          task)

/-- The ways on which a run comes from a list into the branches that a gap lies in. -/
inductive Enters (engine : Engine) :
    Gap → Nat → Context → List Act → Gap → Nat → Context → Prop where
  | refl {gap : Gap} {depth : Nat} {context : Context} :
      Enters engine gap depth context [] gap depth context
  | branch {before behind : List Action} {owner : Action} {side : Side} {inner gap : Gap}
      {depth final : Nat} {context between last : Context} {first own later : List Act}
      {outcome : Outcome} :
      engine.RunsThrough depth context before first between → owner.detached = false →
      engine.Attempted depth between owner own outcome → outcome.side? = some side →
      Enters engine inner (depth + 1) (between.behind outcome) later gap final last →
      Enters engine (within before owner side inner behind) depth context
        (first ++ (own ++ later)) gap final last

/-- Along some acts nothing would show if an action were not in a gap. -/
structure Harmless (engine : Engine) (action : Action) (gap : Gap) (depth : Nat)
    (context : Context) (acts : List Act) : Prop where
  /-- Whenever the run comes to the gap, the action is skipped. -/
  skipped : ∀ {told first : List Act} {before behind : List Action} {inner : Nat}
    {between last : Context},
    gap.Enters engine depth context told (here before behind) inner between →
    engine.RunsThrough inner between before first last → told ++ first <+: acts →
    inner ≤ engine.maxDepth ∧ Condition.allows action.condition last = false
  /-- Where the gap makes a whole branch for failures of an awaited action, that action
  does not fail. -/
  succeeded : ∀ {told first own : List Act} {before behind : List Action} {owner : Action}
    {inner : Nat} {between last : Context} {outcome : Outcome},
    gap.Enters engine depth context told (within before owner .onError (here [] []) behind) inner
      between →
    owner.detached = false → engine.RunsThrough inner between before first last →
    engine.Attempted inner last owner own outcome → told ++ (first ++ own) <+: acts →
    outcome.succeeded = true

variable {engine : Engine} {action : Action}

/-- Along the acts of a branch, too, nothing would show. -/
theorem Harmless.branch {before behind : List Action} {owner : Action} {side : Side} {inner : Gap}
    {depth : Nat} {context between : Context} {first own later acts : List Act} {outcome : Outcome}
    (hharmless : (within before owner side inner behind).Harmless engine action depth context acts)
    (hfirst : engine.RunsThrough depth context before first between)
    (howner : owner.detached = false)
    (hattempted : engine.Attempted depth between owner own outcome)
    (hside : outcome.side? = some side) (hinitial : first ++ (own ++ later) <+: acts) :
    inner.Harmless engine action (depth + 1) (between.behind outcome) later := by
  have hacts {told : List Act} (htold : told <+: later) :
      first ++ (own ++ told) <+: acts :=
    ((List.prefix_append_right_inj first).2
      ((List.prefix_append_right_inj own).2 htold)).trans hinitial
  constructor
  · intro told last before' behind' depth' between' last' henters hthrough htold
    refine hharmless.skipped (.branch hfirst howner hattempted hside henters) hthrough ?_
    simpa using hacts htold
  · intro told last own' before' behind' owner' depth' between' last' outcome' henters howner'
      hthrough hattempted' htold
    refine hharmless.succeeded (.branch hfirst howner hattempted hside henters) howner' hthrough
      hattempted' ?_
    simpa using hacts htold

theorem sameBut_within {before behind : List Action} {owner : Action} {side : Side} {inner : Gap}
    {filling other : List Action} (howner : owner.detached = false) {acts others : List Act}
    (hsame : List.Forall₂ (inner.SameBut filling other) acts others) :
    List.Forall₂ ((within before owner side inner behind).SameBut filling other) acts others := by
  refine hsame.imp fun act act' hact => ?_
  cases hact with
  | same => exact .same
  | started hdetached => exact .started (by rw [detached?, howner]; exact hdetached)

theorem sameBut_refl (gap : Gap) (filling other : List Action) (acts : List Act) :
    List.Forall₂ (gap.SameBut filling other) acts acts :=
  List.forall₂_same.2 fun _ _ => .same

/-- A list with something in a gap is not empty, and without it the list is empty if the
gap is all that there is. -/
theorem isEmpty_fill_eq {gap : Gap} (hall : gap ≠ here [] []) (action : Action) :
    (gap.fill [action]).isEmpty = (gap.fill []).isEmpty := by
  cases gap with
  | within before => cases before <;> rfl
  | here before behind =>
      cases before with
      | cons => rfl
      | nil =>
          cases behind with
          | cons => rfl
          | nil => exact absurd rfl hall

/-- A run over a list with an action that would be skipped is given up in front of it, or has
its success between the outcomes of the actions before and behind it. -/
theorem walk_here_cases (haction : action.detached = false) {before behind : List Action}
    {depth : Nat} {context : Context} {acts : List Act} {run : Run}
    (hharmless : (here before behind).Harmless engine action depth context acts)
    (hwalk : Script.Walk (engine.runList depth context ((here before behind).fill [action])) acts
      run) :
    (run.success = false ∧ Script.Walk (engine.runList depth context before) acts run ∧
      run.outcomes.length ≤ (Action.awaited before).length) ∨
    ∃ told later first rest, acts = told ++ later ∧
      run = first.followedBy (rest.afterOutcome (.success none)) ∧
      Script.Walk (engine.runList depth context before) told first ∧ first.success = true ∧
      first.outcomes.length = (Action.awaited before).length ∧
      Script.Walk (engine.runList depth (context.afterAll first.outcomes) behind) later rest := by
  rcases Engine.walk_append_iff.1 hwalk with
    ⟨hgivenUp, hbefore⟩ | ⟨told, later, first, next, rfl, rfl, hbefore, hsuccess, hnext⟩
  · exact .inl ⟨hgivenUp, hbefore, (Engine.length_outcomes_le hbefore).1⟩
  · obtain ⟨hdepth, hskipped⟩ := hharmless.skipped .refl ⟨first, hbefore, hsuccess, rfl⟩
      (List.prefix_append told later)
    obtain ⟨rest, hrest, rfl⟩ :=
      (Engine.walk_runList_skipped_iff haction hdepth hskipped).1 hnext
    exact .inr ⟨told, later, first, rest, rfl, rfl, hbefore, hsuccess,
      (Engine.length_outcomes_le hbefore).2 hsuccess, hrest⟩

/-- A skipped action is reported as a success without an answer. -/
theorem eq_success_of_outcome? (haction : action.detached = false) {gap : Gap} {depth : Nat}
    {context : Context} {acts : List Act} {run : Run} {outcome : Outcome}
    (hharmless : gap.Harmless engine action depth context acts)
    (hwalk : Script.Walk (engine.runList depth context (gap.fill [action])) acts run)
    (houtcome : gap.outcome? run = some outcome) : outcome = .success none := by
  cases gap with
  | within => cases houtcome
  | here before behind =>
      rw [outcome?] at houtcome
      rcases walk_here_cases haction hharmless hwalk with
        ⟨-, -, hlength⟩ | ⟨told, later, first, rest, -, rfl, -, -, hlength, -⟩
      · rw [List.getElem?_eq_none hlength] at houtcome
        cases houtcome
      · rw [Run.followedBy, Run.afterOutcome, List.getElem?_append_right (Nat.le_of_eq hlength),
          hlength, Nat.sub_self] at houtcome
        exact (Option.some.inj houtcome).symm

/-- Without an action that would be skipped, the owner of the branch does the same. -/
theorem exists_walk_owner {owner : Action} {side : Side} {inner : Gap} {depth : Nat}
    {context : Context} {acts : List Act} {outcome : Outcome}
    (hbranch : ∀ own later run, acts = own ++ later →
      engine.Attempted depth context owner own outcome → outcome.side? = some side →
      Script.Walk (engine.runList (depth + 1) (context.behind outcome) (inner.fill [action])) later
        run →
      ∃ others, List.Forall₂ (inner.SameBut [action] []) later others ∧
        Script.Walk (engine.runList (depth + 1) (context.behind outcome) (inner.fill [])) others
          (inner.cut run))
    (hwalk : Script.Walk (engine.runAction depth context
      (owner.withBranch (some (inner.fill [action])) side)) acts outcome) :
    ∃ others, List.Forall₂ (inner.SameBut [action] []) acts others ∧
      Script.Walk (engine.runAction depth context (owner.withBranch (some (inner.fill [])) side))
        others outcome := by
  obtain ⟨own, later, run, rfl, hattempted, hlater⟩ := Engine.walk_runAction_iff.1 hwalk
  have hown := Engine.attempted_withBranch_iff.1 hattempted
  have hother : engine.Attempted depth context (owner.withBranch (some (inner.fill [])) side) own
      outcome := Engine.attempted_withBranch_iff.2 hown
  rw [Action.behind_withBranch] at hlater
  by_cases hside : outcome.side? = some side
  · rw [if_pos hside] at hlater
    obtain ⟨others, hsame, hinner⟩ := hbranch own later run rfl hown hside hlater
    refine ⟨own ++ others, List.rel_append (sameBut_refl inner _ _ own) hsame, ?_⟩
    refine Engine.walk_runAction_iff.2 ⟨own, others, inner.cut run, rfl, hother, ?_⟩
    rw [Action.behind_withBranch, if_pos hside]
    exact hinner
  · rw [if_neg hside] at hlater
    refine ⟨own ++ later, sameBut_refl inner _ _ _, ?_⟩
    refine Engine.walk_runAction_iff.2 ⟨own, later, run, rfl, hother, ?_⟩
    rw [Action.behind_withBranch, if_neg hside]
    exact hlater

/-- Without an action that would be skipped, an awaited owner and what stands behind it do the
same. -/
theorem exists_walk_awaited {before behind : List Action} {owner : Action} {side : Side}
    {inner : Gap} {depth : Nat} {context between : Context} {told later : List Act} {run : Run}
    (hinner : ∀ {context acts run}, inner.Harmless engine action (depth + 1) context acts →
      Script.Walk (engine.runList (depth + 1) context (inner.fill [action])) acts run →
      ∃ others, List.Forall₂ (inner.SameBut [action] []) acts others ∧
        Script.Walk (engine.runList (depth + 1) context (inner.fill [])) others (inner.cut run))
    (hharmless : (within before owner side inner behind).Harmless engine action depth context
      (told ++ later))
    (hbefore : engine.RunsThrough depth context before told between)
    (howner : owner.detached = false)
    (hwalk : Script.Walk (engine.runList depth between
      (owner.withBranch (some (inner.fill [action])) side :: behind)) later run) :
    ∃ others, List.Forall₂ ((within before owner side inner behind).SameBut [action] []) later
        others ∧
      Script.Walk (engine.runList depth between
        (owner.withBranch (some (inner.fill [])) side :: behind)) others run := by
  refine Engine.exists_walk_cons (by simp [howner]) (by simp [howner]) (fun _ => .same)
    (fun own outcome hown hinitial => ?_) hwalk
  have hinside {part : List Act} (hpart : part <+: own) : told ++ part <+: told ++ later :=
    (List.prefix_append_right_inj told).2 (hpart.trans hinitial)
  obtain ⟨others, hsame, hothers⟩ := exists_walk_owner
    (fun attempt behind run hacts hattempted hside hwalk =>
      hinner (hharmless.branch hbefore howner hattempted hside
        (hinside (hacts ▸ List.prefix_refl own))) hwalk) hown
  refine ⟨others, sameBut_within howner hsame, hothers, ?_⟩
  -- the owner keeps its handler: a branch that is emptied belongs to an owner that succeeds
  obtain ⟨attempt, rest, run, rfl, hattempted, -⟩ := Engine.walk_runAction_iff.1 hown
  apply Action.isGivenUp_withBranch
  rintro rfl hfailed
  apply isEmpty_fill_eq
  rintro rfl
  have hsucceeded := hharmless.succeeded .refl howner hbefore
    (Engine.attempted_withBranch_iff.1 hattempted) (hinside (List.prefix_append _ _))
  rw [hsucceeded] at hfailed
  cases hfailed

/-- Without an action that would be skipped, a run over the list does the same. -/
theorem exists_walk_fill_nil (haction : action.detached = false) {gap : Gap} {depth : Nat}
    {context : Context} {acts : List Act} {run : Run}
    (hharmless : gap.Harmless engine action depth context acts)
    (hwalk : Script.Walk (engine.runList depth context (gap.fill [action])) acts run) :
    ∃ others, List.Forall₂ (gap.SameBut [action] []) acts others ∧
      Script.Walk (engine.runList depth context (gap.fill [])) others (gap.cut run) := by
  induction gap generalizing depth context acts run with
  | here before behind =>
      refine ⟨acts, sameBut_refl _ _ _ acts, ?_⟩
      rcases walk_here_cases haction hharmless hwalk with
        ⟨hgivenUp, hbefore, hlength⟩ |
          ⟨told, later, first, rest, rfl, rfl, hbefore, hsuccess, hlength, hrest⟩
      · rw [cut, List.eraseIdx_of_length_le hlength]
        exact Engine.walk_append_iff.2 (.inl ⟨hgivenUp, hbefore⟩)
      · have hcut : (here before behind).cut
            (first.followedBy (rest.afterOutcome (.success none))) = first.followedBy rest := by
          simp [cut, Run.followedBy, Run.afterOutcome, ← hlength, List.eraseIdx_append_of_length_le]
        rw [hcut]
        exact Engine.walk_append_iff.2
          (.inr ⟨told, later, first, rest, rfl, rfl, hbefore, hsuccess, hrest⟩)
  | within before owner side inner behind ih =>
      rcases Engine.walk_append_iff.1 hwalk with
        ⟨hgivenUp, hbefore⟩ | ⟨told, later, first, next, rfl, rfl, hbefore, hsuccess, hnext⟩
      · exact ⟨acts, sameBut_refl _ _ _ acts, Engine.walk_append_iff.2 (.inl ⟨hgivenUp, hbefore⟩)⟩
      · suffices hlater : ∃ others,
            List.Forall₂ ((within before owner side inner behind).SameBut [action] []) later
              others ∧
            Script.Walk (engine.runList depth (context.afterAll first.outcomes)
              (owner.withBranch (some (inner.fill [])) side :: behind)) others next by
          obtain ⟨others, hsame, hothers⟩ := hlater
          exact ⟨told ++ others, List.rel_append (sameBut_refl _ _ _ told) hsame,
            Engine.walk_append_iff.2
              (.inr ⟨told, others, first, next, rfl, rfl, hbefore, hsuccess, hothers⟩)⟩
        cases howner : owner.detached with
        | true =>
            -- the task of the owner is another one, and everything else is the same
            rw [Engine.runList_detached _ _ _ _ (by rw [Action.detached_withBranch, howner])]
              at hnext
            obtain ⟨task, rest, rfl, hrest⟩ := Script.walk_start_iff.1 hnext
            refine ⟨_, .cons (.started (by rw [detached?, if_pos howner]))
              (sameBut_refl _ _ _ rest), ?_⟩
            rw [Engine.runList_detached _ _ _ _ (by rw [Action.detached_withBranch, howner])]
            exact .start hrest
        | false =>
            exact exists_walk_awaited ih hharmless ⟨first, hbefore, hsuccess, rfl⟩ howner hnext

end Gap

end LivePage
