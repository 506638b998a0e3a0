import LivePage.Proofs.Run.Sequence

/-!
# Accounts of runs

A walk says what was done, but not which action of the tree did it.  An account
lists the actions that were run, each with its place in the tree, the context it
was run in, what it did itself and how it ended.  The tasks that a run starts are
part of its account, so every run together with all of its tasks has one, in
whatever order their acts were mixed.
-/

namespace LivePage

/-- A turn on the way from a list of actions to one of its parts. -/
inductive Turn where
  | item (index : Nat)
  | onSuccess
  | onError
deriving DecidableEq

/-- The way to an action or a branch, the outermost turn first. -/
abbrev Place := List Turn

/-- The action at the end of a way that starts at another action. -/
def Action.descend? : Place → Action → Option Action
  | [], action => some action
  | .onSuccess :: .item index :: rest, action =>
      ((branch action.onSuccess)[index]?).bind (descend? rest)
  | .onError :: .item index :: rest, action =>
      ((branch action.onError)[index]?).bind (descend? rest)
  | _, _ => none

/-- The action at a place in a list of trees. -/
def Action.nodeAt? (actions : List Action) : Place → Option Action
  | .item index :: rest => (actions[index]?).bind (descend? rest)
  | _ => none

namespace Act

/-- The request that an act sends, with its reply. -/
def request? : Act → Option (HttpRequest × HttpReply)
  | asked request reply => some (request, reply)
  | _ => none

/-- The start of a job, where there is a task for it. -/
def starts (job : Job) (task : Option TaskId) : List Act :=
  (task.map (started job)).toList

end Act

/-- One action that was run. -/
structure Entry where
  place : Place
  action : Action
  depth : Nat
  context : Context
  /-- The task that ran the action, if it was detached. -/
  task : Option TaskId
  /-- What the action did, without its branches. -/
  told : List Act
  outcome : Outcome

namespace Entry

/-- The acts of an entry.  The start of a task belongs to the action that the
task runs. -/
def acts (entry : Entry) : List Act :=
  Act.starts ⟨entry.action, entry.context, entry.depth⟩ entry.task ++ entry.told

/-- The requests of an entry, with their replies. -/
def requests (entry : Entry) : List (HttpRequest × HttpReply) :=
  entry.told.filterMap Act.request?

end Entry

namespace Engine

/-- The acts of a walk together with those of all the tasks that it starts and of
the tasks that these start, mixed in any order. -/
inductive Together (engine : Engine) : List Act → List Act → Prop where
  | nil : Together engine [] []
  | own {act : Act} {acts others all : List Act} :
      act.job? = none → Together engine acts others → all.Perm (act :: others) →
      Together engine (act :: acts) all
  | started {job : Job} {task : TaskId} {outcome : Outcome}
      {acts mine whole others all : List Act} :
      Script.Walk (engine.runJob job) mine outcome → Together engine mine whole →
      Together engine acts others → all.Perm (.started job task :: (whole ++ others)) →
      Together engine (.started job task :: acts) all

mutual

/-- What may be told about an action at a place.  Only the branch that belongs to
its end is part of it. -/
inductive ActionAccount (engine : Engine) :
    Place → Nat → Context → Action → Option TaskId → List Entry → Outcome → Prop where
  | answered {place : Place} {depth : Nat} {context : Context} {action : Action}
      {task : Option TaskId} {told : List Act} {answer : HttpResponse} {inner : List Entry} :
      engine.Attempted depth context action told (.success (some answer)) →
      BranchAccount engine (place ++ [.onSuccess]) (depth + 1) (context.answered answer)
        action.onSuccess inner →
      ActionAccount engine place depth context action task
        (⟨place, action, depth, context, task, told, .success (some answer)⟩ :: inner)
        (.success (some answer))
  | refused {place : Place} {depth : Nat} {context : Context} {action : Action}
      {task : Option TaskId} {told : List Act} {error : HttpError} {inner : List Entry} :
      engine.Attempted depth context action told (.failure (.request error)) →
      BranchAccount engine (place ++ [.onError]) (depth + 1) (context.refused error)
        action.onError inner →
      ActionAccount engine place depth context action task
        (⟨place, action, depth, context, task, told, .failure (.request error)⟩ :: inner)
        (.failure (.request error))
  | plain {place : Place} {depth : Nat} {context : Context} {action : Action}
      {task : Option TaskId} {told : List Act} {outcome : Outcome} :
      engine.Attempted depth context action told outcome →
      (∀ answer, outcome ≠ .success (some answer)) →
      (∀ error, outcome ≠ .failure (.request error)) →
      ActionAccount engine place depth context action task
        [⟨place, action, depth, context, task, told, outcome⟩] outcome

/-- What may be told about a branch at a place: nothing where it is missing or
empty, and otherwise one run of its actions. -/
inductive BranchAccount (engine : Engine) :
    Place → Nat → Context → Option (List Action) → List Entry → Prop where
  | absent {place : Place} {depth : Nat} {context : Context} :
      BranchAccount engine place depth context none []
  | present {place : Place} {depth : Nat} {context : Context} {actions : List Action}
      {entries : List Entry} {run : Run} :
      ListAccount engine place 0 depth context actions entries run →
      BranchAccount engine place depth context (some actions) entries

/-- What may be told about the actions of a list from an index on. -/
inductive ListAccount (engine : Engine) :
    Place → Nat → Nat → Context → List Action → List Entry → Run → Prop where
  | nil {place : Place} {index depth : Nat} {context : Context} :
      ListAccount engine place index depth context [] [] {}
  | started {place : Place} {index depth : Nat} {context : Context} {action : Action}
      {rest : List Action} {task : TaskId} {entries later : List Entry} {outcome : Outcome}
      {run : Run} :
      action.detached = true →
      ActionAccount engine (place ++ [.item index]) depth context action (some task) entries
        outcome →
      ListAccount engine place (index + 1) depth context rest later run →
      ListAccount engine place index depth context (action :: rest) (entries ++ later)
        (run.afterStart task)
  | givenUp {place : Place} {index depth : Nat} {context : Context} {action : Action}
      {rest : List Action} {entries : List Entry} {outcome : Outcome} :
      action.detached = false →
      ActionAccount engine (place ++ [.item index]) depth context action none entries outcome →
      action.isGivenUp outcome = true →
      ListAccount engine place index depth context (action :: rest) entries (.givenUp outcome)
  | awaited {place : Place} {index depth : Nat} {context : Context} {action : Action}
      {rest : List Action} {entries later : List Entry} {outcome : Outcome} {run : Run} :
      action.detached = false →
      ActionAccount engine (place ++ [.item index]) depth context action none entries outcome →
      action.isGivenUp outcome = false →
      ListAccount engine place (index + 1) depth (context.after outcome) rest later run →
      ListAccount engine place index depth context (action :: rest) (entries ++ later)
        (run.afterOutcome outcome)

end

theorem together_nil_iff {engine : Engine} {all : List Act} :
    engine.Together [] all ↔ all = [] := by
  constructor
  · intro h
    cases h
    rfl
  · rintro rfl
    exact .nil

/-- The acts of a walk and of its tasks fall apart where the walk does. -/
theorem Together.append {engine : Engine} {first second all : List Act}
    (htogether : engine.Together (first ++ second) all) :
    ∃ one other, engine.Together first one ∧ engine.Together second other ∧
      all.Perm (one ++ other) := by
  induction first generalizing all with
  | nil => exact ⟨[], all, .nil, htogether, .refl all⟩
  | cons act rest ih =>
      cases htogether with
      | @own _ _ others _ hown hrest hall =>
          obtain ⟨one, other, hone, hother, hothers⟩ := ih hrest
          refine ⟨act :: one, other, .own hown hone (.refl _), hother, hall.trans ?_⟩
          exact hothers.cons act
      | @started job task outcome _ mine whole others _ hwalk hwhole hrest hall =>
          obtain ⟨one, other, hone, hother, hothers⟩ := ih hrest
          refine ⟨.started job task :: (whole ++ one), other,
            .started hwalk hwhole hone (.refl _), hother, hall.trans ?_⟩
          rw [List.cons_append, List.append_assoc]
          exact (hothers.append_left whole).cons _

theorem Together.of_started {engine : Engine} {job : Job} {task : TaskId} {acts all : List Act}
    (htogether : engine.Together (.started job task :: acts) all) :
    ∃ outcome mine whole others, Script.Walk (engine.runJob job) mine outcome ∧
      engine.Together mine whole ∧ engine.Together acts others ∧
      all.Perm (.started job task :: (whole ++ others)) := by
  cases htogether with
  | own hown => simp [Act.job?] at hown
  | started hwalk hwhole hothers hall => exact ⟨_, _, _, _, hwalk, hwhole, hothers, hall⟩

/-- Where no task is started, there are no other acts. -/
theorem Together.perm {engine : Engine} {acts all : List Act}
    (htogether : engine.Together acts all) (hnone : ∀ act ∈ acts, act.job? = none) :
    all.Perm acts := by
  induction acts generalizing all with
  | nil => rw [together_nil_iff.1 htogether]
  | cons act rest ih =>
      cases htogether with
      | own _ hrest hall =>
          exact hall.trans ((ih hrest fun later hlater => hnone later (.tail _ hlater)).cons act)
      | started => simpa [Act.job?] using hnone _ (.head rest)

/-- An attempt starts no task. -/
theorem Attempted.job?_eq_none {engine : Engine} {depth : Nat} {context : Context}
    {action : Action} {told : List Act} {outcome : Outcome}
    (hattempted : engine.Attempted depth context action told outcome) :
    ∀ act ∈ told, act.job? = none := by
  intro act hact
  obtain ⟨ms, rfl⟩ | ⟨message, reply, rfl⟩ | ⟨effect, -, rfl⟩ := hattempted.act_cases hact
  · rfl
  · rfl
  · rfl

/-- The acts of some entries. -/
def actsOf (entries : List Entry) : List Act :=
  entries.flatMap Entry.acts

@[simp]
theorem actsOf_append (first second : List Entry) :
    actsOf (first ++ second) = actsOf first ++ actsOf second :=
  List.flatMap_append

/-- The acts of an action are those of its attempt and those of its branch. -/
theorem perm_actsOf_cons {place : Place} {depth : Nat} {context : Context} {action : Action}
    {task : Option TaskId} {told one other all : List Act} {inner : List Entry}
    {outcome : Outcome} (htold : one.Perm told) (hinner : (actsOf inner).Perm other)
    (hall : all.Perm (one ++ other)) :
    (actsOf (⟨place, action, depth, context, task, told, outcome⟩ :: inner)).Perm
      (Act.starts ⟨action, context, depth⟩ task ++ all) := by
  have hwhole : all.Perm (told ++ actsOf inner) := hall.trans (htold.append hinner.symm)
  rw [actsOf, List.flatMap_cons, Entry.acts, List.append_assoc]
  exact hwhole.symm.append_left _

mutual

/-- Every walk through the script of an action has an account, which tells all
that the walk and its tasks did. -/
theorem exists_actionAccount (engine : Engine) (place : Place) (depth : Nat) (context : Context)
    (action : Action) (task : Option TaskId) {acts all : List Act} {outcome : Outcome}
    (hwalk : Script.Walk (engine.runAction depth context action) acts outcome)
    (htogether : engine.Together acts all) :
    ∃ entries, engine.ActionAccount place depth context action task entries outcome ∧
      (actsOf entries).Perm (Act.starts ⟨action, context, depth⟩ task ++ all) := by
  match action with
  | ⟨kind, condition, delay, detached, onSuccess, onError⟩ =>
    rw [runAction_eq] at hwalk
    obtain ⟨told, result, mine, rfl, hattempt, hlater⟩ := Script.walk_bind_iff.1 hwalk
    obtain ⟨_, haftermath, rfl⟩ := Script.walk_map_iff.1 hlater
    obtain ⟨one, other, hone, hother, hall⟩ := htogether.append
    have hattempted := walk_attempt_iff.1 hattempt
    have htold := hone.perm hattempted.job?_eq_none
    match result with
    | .success (some answer) =>
        obtain ⟨inner, hinner, hacts⟩ := exists_branchAccount engine (place ++ [.onSuccess])
          (depth + 1) (context.answered answer) onSuccess haftermath hother
        refine ⟨_, .answered hattempted hinner, ?_⟩
        exact perm_actsOf_cons htold hacts hall
    | .failure (.request error) =>
        obtain ⟨inner, hinner, hacts⟩ := exists_branchAccount engine (place ++ [.onError])
          (depth + 1) (context.refused error) onError haftermath hother
        refine ⟨_, .refused hattempted hinner, ?_⟩
        exact perm_actsOf_cons htold hacts hall
    | .success none | .failure (.tooDeep _) | .failure .unknownKind | .failure (.aborted _) =>
        obtain ⟨rfl, -⟩ := Script.walk_done_iff.1 haftermath
        rw [together_nil_iff.1 hother] at hall
        refine ⟨_, .plain hattempted (by simp) (by simp), ?_⟩
        exact perm_actsOf_cons htold (.refl _) hall
termination_by structural action

theorem exists_branchAccount (engine : Engine) (place : Place) (depth : Nat) (context : Context)
    (actions : Option (List Action)) {acts all : List Act} {result : Unit}
    (hwalk : Script.Walk (engine.runBranch depth context actions) acts result)
    (htogether : engine.Together acts all) :
    ∃ entries, engine.BranchAccount place depth context actions entries ∧
      (actsOf entries).Perm all := by
  match actions with
  | none =>
      rw [runBranch] at hwalk
      obtain ⟨rfl, -⟩ := Script.walk_done_iff.1 hwalk
      rw [together_nil_iff.1 htogether]
      exact ⟨[], .absent, .refl _⟩
  | some actions =>
      rw [runBranch] at hwalk
      obtain ⟨run, hlist, -⟩ := Script.walk_map_iff.1 hwalk
      obtain ⟨entries, hentries, hacts⟩ :=
        exists_listAccount engine place 0 depth context actions hlist htogether
      exact ⟨entries, .present hentries, hacts⟩
termination_by structural actions

theorem exists_listAccount (engine : Engine) (place : Place) (index depth : Nat)
    (context : Context) (actions : List Action) {acts all : List Act} {run : Run}
    (hwalk : Script.Walk (engine.runList depth context actions) acts run)
    (htogether : engine.Together acts all) :
    ∃ entries, engine.ListAccount place index depth context actions entries run ∧
      (actsOf entries).Perm all := by
  match actions with
  | [] =>
      cases walk_runList_iff.1 hwalk with
      | nil =>
          rw [together_nil_iff.1 htogether]
          exact ⟨[], .nil, .refl _⟩
  | action :: rest =>
      cases walk_runList_iff.1 hwalk with
      | detached hdetached hrest =>
          -- what the task does is told here, where it is started
          obtain ⟨outcome, mine, whole, others, hmine, hwhole, hothers, hall⟩ :=
            htogether.of_started
          obtain ⟨entries, hentries, hacts⟩ := exists_actionAccount engine
            (place ++ [.item index]) depth context action _ hmine hwhole
          obtain ⟨remaining, hremaining, hactsRest⟩ :=
            exists_listAccount engine place (index + 1) depth context rest hrest.walk hothers
          refine ⟨_, .started hdetached hentries hremaining, ?_⟩
          rw [actsOf_append]
          exact (hacts.append hactsRest).trans hall.symm
      | givenUp hawaited hgivenUp haction =>
          obtain ⟨entries, hentries, hacts⟩ := exists_actionAccount engine
            (place ++ [.item index]) depth context action none haction htogether
          exact ⟨_, .givenUp hawaited hentries hgivenUp, hacts⟩
      | @awaited _ _ _ _ _ outcome _ hawaited hgivenUp haction hrest =>
          obtain ⟨one, other, hone, hother, hall⟩ := htogether.append
          obtain ⟨entries, hentries, hacts⟩ := exists_actionAccount engine
            (place ++ [.item index]) depth context action none haction hone
          obtain ⟨remaining, hremaining, hactsRest⟩ := exists_listAccount engine place
            (index + 1) depth (context.after outcome) rest hrest.walk hother
          refine ⟨_, .awaited hawaited hentries hgivenUp hremaining, ?_⟩
          rw [actsOf_append]
          exact (hacts.append hactsRest).trans hall.symm
termination_by structural actions

end

end Engine

end LivePage
