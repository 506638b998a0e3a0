import LivePage.Proofs.Run.Gaps
import LivePage.Proofs.Schedule.Jobs

/-!
# What can be left out

Two things in a tree of actions do nothing: a branch without actions, and an awaited
action that is skipped.  An empty branch can be left out anywhere, and nothing changes on
the whole page under any schedule.  A skipped action can be left out of its list, and
nothing changes but that its own success is not reported any more, unless it alone makes
the branch for failures of an awaited action that fails: with that branch the owner lost
its handler, and its failure would end its list.
-/

namespace LivePage

/-- The errand with compact actions. -/
def Errand.compact (errand : Errand) : Errand :=
  { errand with actions := Action.compactList errand.actions }

theorem Engine.respects_compact (engine : Engine) :
    engine.Respects Job.compact Errand.compact where
  runJob := engine.runJob_compact
  runErrand := fun errand => engine.runList_compact errand.depth errand.context errand.actions

namespace Gap

theorem compactList_fill_congr {first second : List Action}
    (hsame : Action.compactList first = Action.compactList second) (gap : Gap) :
    Action.compactList (gap.fill first) = Action.compactList (gap.fill second) := by
  simp only [Action.compactList_eq_map] at hsame ⊢
  induction gap with
  | here before behind => simp [fill, hsame]
  | within before owner side inner behind ih =>
      have howner : (owner.withBranch (some (inner.fill first)) side).compact =
          (owner.withBranch (some (inner.fill second)) side).compact := by
        cases side <;> simp only [Action.withBranch, Action.compact, Action.compactBranch_some,
          Action.compactList_eq_map, ih]
      simp [fill, howner]

end Gap

namespace Crowd

variable {σ : Type}

/-- Moves that are the same but for empty branches do the same. -/
theorem play_congr_compact (setting : Setting σ) (world : World σ) {moves others : List Move}
    (hsame : moves.map (Move.mapErrand Errand.compact) =
      others.map (Move.mapErrand Errand.compact)) :
    ((fresh world).play setting moves).mapJobs Job.compact Errand.compact =
      ((fresh world).play setting others).mapJobs Job.compact Errand.compact := by
  have hengine := setting.engine.respects_compact
  calc
    ((fresh world).play setting moves).mapJobs Job.compact Errand.compact =
        ((fresh world).mapJobs Job.compact Errand.compact).play setting
          (moves.map (Move.mapErrand Errand.compact)) := (play_mapJobs hengine _ moves).symm
    _ = ((fresh world).mapJobs Job.compact Errand.compact).play setting
          (others.map (Move.mapErrand Errand.compact)) := by rw [hsame]
    _ = ((fresh world).play setting others).mapJobs Job.compact Errand.compact :=
      play_mapJobs hengine _ others

end Crowd

namespace Engine

/-- A branch without actions is as good as no branch, and nothing is seen of a skipped action
but its own success, unless it alone makes the branch for failures of an action that fails. -/
theorem noop_erasure :
    (∀ (gap : Gap) (owner : Action) (side : Side),
      Action.compactList (gap.fill [owner.withBranch (some []) side]) =
        Action.compactList (gap.fill [owner.withBranch none side])) ∧
    (∀ (σ : Type) (setting : Setting σ) (world : World σ) (moves others : List Move),
      moves.map (Move.mapErrand Errand.compact) = others.map (Move.mapErrand Errand.compact) →
      let crowd := (Crowd.fresh world).play setting moves
      let other := (Crowd.fresh world).play setting others
      crowd.mapJobs Job.compact Errand.compact = other.mapJobs Job.compact Errand.compact ∧
        crowd.machine.world = other.machine.world ∧ crowd.machine.clock = other.machine.clock ∧
        (∀ task, crowd.machine.outcome? task = other.machine.outcome? task) ∧
        ∀ (i : Nat) (run : Run), (crowd.threads[i]?).map Thread.state = some (.ended run) ↔
          (other.threads[i]?).map Thread.state = some (.ended run)) ∧
    (∀ (engine : Engine) (gap : Gap) (action : Action) (depth : Nat) (context : Context)
      (acts : List Act) (run : Run), action.detached = false →
      gap.Harmless engine action depth context acts →
      Script.Walk (engine.runList depth context (gap.fill [action])) acts run →
      (∀ outcome, gap.outcome? run = some outcome → outcome = .success none) ∧
        ∃ others, List.Forall₂ (gap.SameBut [action] []) acts others ∧
          Script.OnlyWalk (engine.runList depth context (gap.fill [])) others (gap.cut run)) ∧
    ∀ (engine : Engine) (owner : Action) (side : Side) (inner : Gap) (action : Action)
      (depth : Nat) (context : Context) (acts : List Act) (outcome : Outcome),
      action.detached = false →
      (∀ own later, acts = own ++ later → engine.Attempted depth context owner own outcome →
        outcome.side? = some side →
        inner.Harmless engine action (depth + 1) (context.behind outcome) later) →
      Script.Walk (engine.runJob
        { action := owner.withBranch (some (inner.fill [action])) side, context, depth }) acts
        outcome →
      ∃ others, List.Forall₂ (inner.SameBut [action] []) acts others ∧
        Script.OnlyWalk (engine.runJob
          { action := owner.withBranch (some (inner.fill [])) side, context, depth }) others
          outcome := by
  refine ⟨fun gap owner side => ?_, fun σ setting world moves others hsame => ?_, ?_, ?_⟩
  · apply gap.compactList_fill_congr
    cases side <;> rfl
  · have heq := Crowd.play_congr_compact setting world hsame
    exact ⟨heq, Crowd.same_of_mapJobs_eq heq⟩
  · intro engine gap action depth context acts run haction hharmless hwalk
    obtain ⟨others, hsame, hothers⟩ := Gap.exists_walk_fill_nil haction hharmless hwalk
    exact ⟨fun _ => Gap.eq_success_of_outcome? haction hharmless hwalk, others, hsame,
      hothers.only⟩
  · intro engine owner side inner action depth context acts outcome haction hharmless hwalk
    obtain ⟨others, hsame, hothers⟩ := Gap.exists_walk_owner
      (fun own later run hacts hattempted hside hlater => Gap.exists_walk_fill_nil haction
        (hharmless own later hacts hattempted hside) hlater) hwalk
    exact ⟨others, hsame, hothers.only⟩

/-- A request without branches. -/
def asking : Action where
  kind := .callApi default .get none none

/-- An action that would fail, and is skipped where a request was answered. -/
def alarm : Action where
  kind := .unknown
  condition := some { field := "response.error", operator := .isNotEmpty }
  delay := some 100
  onError := some [{ kind := .closeModal "alarm" }]

/-- The place in front of an action that closes a form. -/
def beforeClosing : Gap :=
  .here [] [{ kind := .closeModal "form" }]

theorem allows_alarm_of_answered :
    Condition.allows alarm.condition (({} : Context).answered default) = false := by
  decide +kernel

/-- Behind the answer to a request the alarm is skipped, whatever is done. -/
theorem harmless_alarm (acts : List Act) :
    beforeClosing.Harmless {} alarm 1 (({} : Context).answered default) acts := by
  constructor
  · intro told first before behind inner between last henters hthrough _
    cases henters with
    | refl =>
        obtain ⟨run, hwalk, -, rfl⟩ := hthrough
        rw [runList_nil] at hwalk
        obtain ⟨-, rfl⟩ := Script.walk_done_iff.1 hwalk
        exact ⟨by decide, allows_alarm_of_answered⟩
  · intro told first own before behind owner inner between last outcome henters
    cases henters

/-- An empty branch for failures is left out, and an alarm behind the answer to a request: in
a list that reports it, and in the branch of a request that runs as a task. -/
theorem noop_erasure_of_alarm :
    let asked := Act.asked (requestOf {} default .get none none) (.ok default)
    let closed := Act.performed (.call (.modal (.closed "form")))
    let handled : Move := .enter { actions := [asking.withBranch (some []) .onError] }
    let bare : Move := .enter { actions := [asking] }
    let world : World Nat := { page := default, host := 0 }
    ([handled].map (Move.mapErrand Errand.compact) = [bare].map (Move.mapErrand Errand.compact) ∧
      ((Crowd.fresh world).play .counting [handled]).machine.world =
        ((Crowd.fresh world).play .counting [bare]).machine.world) ∧
    (alarm.detached = false ∧
      Script.Walk (runList {} 1 (({} : Context).answered default) (beforeClosing.fill [alarm]))
        [closed] { outcomes := [.success none, .success none] } ∧
      ∃ others, List.Forall₂ (beforeClosing.SameBut [alarm] []) [closed] others ∧
        Script.OnlyWalk (runList {} 1 (({} : Context).answered default) (beforeClosing.fill []))
          others { outcomes := [.success none] }) ∧
    Script.Walk (runJob {}
        { action := asking.withBranch (some (beforeClosing.fill [alarm])) .onSuccess, context := {},
          depth := 0 }) [asked, closed] (.success (some default)) ∧
      ∃ others, List.Forall₂ (beforeClosing.SameBut [alarm] []) [asked, closed] others ∧
        Script.OnlyWalk (runJob {}
          { action := asking.withBranch (some (beforeClosing.fill [])) .onSuccess, context := {},
            depth := 0 }) others (.success (some default)) := by
  intro asked closed handled bare world
  obtain ⟨-, hempty, hlist, hjob⟩ := noop_erasure
  have hmoves : [handled].map (Move.mapErrand Errand.compact) =
      [bare].map (Move.mapErrand Errand.compact) := rfl
  have hwalk : Script.Walk
      (runList {} 1 (({} : Context).answered default) (beforeClosing.fill [alarm])) [closed]
      { outcomes := [.success none, .success none] } :=
    (walk_runList_skipped_iff rfl (by decide) allows_alarm_of_answered).2 ⟨_, .perform .done, rfl⟩
  have htask : Script.Walk (runJob {}
      { action := asking.withBranch (some (beforeClosing.fill [alarm])) .onSuccess, context := {},
        depth := 0 }) [asked, closed] (.success (some default)) :=
    walk_runAction_iff.2 ⟨[asked], [closed], _, rfl,
      .asked (.ok default) (by decide) rfl rfl, hwalk⟩
  refine ⟨⟨hmoves, (hempty Nat .counting world [handled] [bare] hmoves).2.1⟩,
    ⟨rfl, hwalk, (hlist {} beforeClosing alarm 1 _ _ _ rfl (harmless_alarm _) hwalk).2⟩, htask,
    hjob {} asking .onSuccess beforeClosing alarm 0 {} _ _ rfl (fun own later _ _ _ => ?_) htask⟩
  exact harmless_alarm later

/-- A skipped action that alone makes the branch for failures of a request that is refused:
with it the run goes on behind the refusal, and without it the run cannot but end there. -/
theorem lone_handler_not_erasable :
    let action : Action :=
      { kind := .closeModal "form"
        condition := some { field := "response.data", operator := .isNotEmpty } }
    let gap : Gap := .within [] asking .onError (.here [] []) [{ kind := .closeModal "form" }]
    let asked := Act.asked (requestOf {} default .get none none) (.error default)
    let closed := Act.performed (.call (.modal (.closed "form")))
    let run : Run := { outcomes := [.failure (.request default), .success none] }
    action.detached = false ∧ 1 ≤ ({} : Engine).maxDepth ∧
      Condition.allows action.condition (({} : Context).refused default) = false ∧
      Script.Walk (runList {} 0 {} (gap.fill [action])) [asked, closed] run ∧
      ∀ others other, Script.Walk (runList {} 0 {} (gap.fill [])) others other →
        Act.SameAnswers [asked, closed] others →
        others = [asked] ∧ other.success = false ∧
          other.outcomes = [.failure (.request default)] := by
  intro action gap asked closed run
  have hskipped : Condition.allows action.condition (({} : Context).refused default) = false := by
    decide +kernel
  have hbranch : Script.Walk (runList {} 1 (({} : Context).refused default) [action]) []
      { outcomes := [.success none] } :=
    (walk_runList_skipped_iff rfl (by decide) hskipped).2 ⟨_, .done, rfl⟩
  have hcall : Script.Walk (runAction {} 0 {} (asking.withBranch (some [action]) .onError)) [asked]
      (.failure (.request default)) :=
    walk_runAction_iff.2 ⟨[asked], [], _, rfl, .asked (.error default) (by decide) rfl rfl, hbranch⟩
  have hnext : Script.Walk (runList {} 0 {} [{ kind := .closeModal "form" }]) [closed]
      { outcomes := [.success none] } := .perform .done
  have hbare : Script.Walk (runAction {} 0 {} (asking.withBranch (some []) .onError)) [asked]
      (.failure (.request default)) :=
    walk_runAction_iff.2 ⟨[asked], [], {}, rfl, .asked (.error default) (by decide) rfl rfl, .done⟩
  have hend : Script.Walk (runList {} 0 {} (gap.fill [])) [asked]
      (.givenUp (.failure (.request default))) := ListWalk.walk (.givenUp rfl rfl hbare)
  refine ⟨rfl, by decide, hskipped,
    ListWalk.walk (.awaited rfl rfl hcall (walk_runList_iff.1 hnext)),
    fun others other hother hsame => ?_⟩
  have hfirst : Act.SameAnswers [asked] others := by
    cases others with
    | nil => exact fun pair hpair => absurd hpair List.not_mem_nil
    | cons act rest => exact List.forall_mem_singleton.2 (hsame _ (.head _))
  obtain ⟨rfl, rfl⟩ := hend.deterministic hother hfirst
  exact ⟨rfl, rfl, rfl⟩

end Engine

end LivePage
