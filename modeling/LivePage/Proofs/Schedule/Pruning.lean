import LivePage.Proofs.Schedule.Twins
import LivePage.Schedule.Background

/-!
# The limit for nesting

A run under a limit for nesting is the run of the pruned list under any larger
limit.  Nobody can tell them apart by what they answer, by the state that they
leave, by the time that they take, or by what their tasks do later.
-/

namespace LivePage

namespace Machine

variable {σ : Type} {setting : Setting σ} {larger : Nat} {machine twin : Machine σ}
  {pairs : List (TaskId × TaskId)}

/-- Twin machines whose loops have enough fuel, with some pairs of tasks. -/
structure Alike (setting : Setting σ) (pairs : List (TaskId × TaskId))
    (machine twin : Machine σ) : Prop where
  twins : Twins setting machine twin
  fueled : machine.Fueled
  fueledTwin : twin.Fueled
  paired : ∀ i j, (i, j) ∈ pairs → Paired setting machine i j

theorem alike_self (setting : Setting σ) {machine : Machine σ} (htasks : machine.tasks = [])
    (hqueue : machine.queue = []) : Alike setting [] machine machine where
  twins := {
    world := rfl
    clock := rfl
    aligned := by
      rw [htasks]
      exact .nil
    known := by simp [hqueue]
    queue := by simp [hqueue, seen] }
  fueled := by simp [Fueled, htasks]
  fueledTwin := by simp [Fueled, htasks]
  paired := by simp

theorem Alike.mono {fewer : List (TaskId × TaskId)} (halike : Alike setting pairs machine twin)
    (hfewer : fewer ⊆ pairs) : Alike setting fewer machine twin :=
  { halike with paired := fun i j hmem => halike.paired i j (hfewer hmem) }

theorem Alike.perform (halike : Alike setting pairs machine twin) (larger : Nat)
    (effect : Effect) :
    Alike setting pairs (machine.perform setting effect)
      (twin.perform (setting.withLimit larger) effect) where
  twins := halike.twins.perform larger effect
  fueled := halike.fueled
  fueledTwin := halike.fueledTwin
  paired := halike.paired

theorem Alike.answer (halike : Alike setting pairs machine twin) (larger : Nat)
    (message : HttpRequest) :
    Alike setting pairs (machine.answer setting message).2
      (twin.answer (setting.withLimit larger) message).2 where
  twins := (halike.twins.answer larger message).2
  fueled := halike.fueled
  fueledTwin := halike.fueledTwin
  paired := halike.paired

/-- A job is started in both machines, and the two tasks are a pair. -/
theorem Alike.start (halike : Alike setting pairs machine twin)
    (hlarger : setting.engine.maxDepth ≤ larger) {job : Job}
    (hdepth : job.depth ≤ setting.engine.maxDepth) :
    Alike setting ((machine.tasks.length, twin.tasks.length) :: pairs)
      (machine.start setting job).2
      (twin.start (setting.withLimit larger) (job.prune setting.engine.maxDepth)).2 where
  twins := halike.twins.start hlarger hdepth
  fueled := halike.fueled.start setting job
  fueledTwin := halike.fueledTwin.start _ _
  paired := by
    intro i j hmem
    have hdepths : depths machine.tasks <+: depths (machine.start setting job).2.tasks :=
      ⟨[job.depth], (depths_start machine job).symm⟩
    rcases List.mem_cons.1 hmem with hnew | hold
    · obtain ⟨rfl, rfl⟩ := Prod.mk.inj hnew
      have hlength : (depths machine.tasks).length = machine.tasks.length := List.length_map ..
      rw [Paired, depths_start, halike.twins.aligned.place_length [job.depth], reaches, ← hlength,
        List.getElem?_concat_length, Option.any_some]
      exact ⟨decide_eq_true hdepth, rfl⟩
    · exact (halike.paired i j hold).of_depths hdepths

theorem Alike.start_tooDeep (halike : Alike setting pairs machine twin) {job : Job}
    (hdepth : setting.engine.maxDepth < job.depth) :
    Alike setting pairs (machine.start setting job).2 twin where
  twins := halike.twins.start_tooDeep hdepth
  fueled := halike.fueled.start setting job
  fueledTwin := halike.fueledTwin
  paired := fun i j hmem =>
    (halike.paired i j hmem).of_depths ⟨[job.depth], (depths_start machine job).symm⟩

/-- Time passes alike. -/
theorem Alike.passUnless (halike : Alike setting pairs machine twin)
    (hlarger : setting.engine.maxDepth ≤ larger) (stop : σ → Bool) (ms : Nat) :
    (twin.passUnless (setting.withLimit larger) stop ms).1 =
        (machine.passUnless setting stop ms).1 ∧
      Alike setting pairs (machine.passUnless setting stop ms).2
        (twin.passUnless (setting.withLimit larger) stop ms).2 := by
  by_cases hms : ms = 0
  · rw [Machine.passUnless, Machine.passUnless, if_pos hms, if_pos hms]
    exact ⟨rfl, halike⟩
  · have hpasses := passesUnless_passUnless setting stop halike.fueled hms
    have hother := passesUnless_passUnless (setting.withLimit larger) stop halike.fueledTwin hms
    rw [halike.twins.clock] at hother
    obtain ⟨hstops, htwins⟩ :=
      (halike.twins.rest larger).passesUnless hlarger hpasses hother
        (rested_rest setting machine)
    have hrested : (machine.rest setting).Fueled := halike.fueled
    have hrestedTwin : (twin.rest (setting.withLimit larger)).Fueled := halike.fueledTwin
    refine ⟨hstops, htwins, hpasses.fueled hrested, hother.fueled hrestedTwin, ?_⟩
    exact fun i j hmem => (halike.paired i j hmem).of_depths hpasses.depths

/-- Two scripts that go alike are given up together, or come to ends that are
related. -/
theorem Alike.runUnless {α β : Type} {r : List (TaskId × TaskId) → α → β → Prop}
    {script : Script α} {other : Script β} (hlarger : setting.engine.maxDepth ≤ larger)
    (stop : σ → Bool) (hprunes : Script.Prunes setting.engine.maxDepth r pairs script other)
    (halike : Alike setting pairs machine twin) :
    ∃ more, Alike setting more (machine.runUnless setting stop script).2
        (twin.runUnless (setting.withLimit larger) stop other).2 ∧
      Option.Rel (r more) (machine.runUnless setting stop script).1
        (twin.runUnless (setting.withLimit larger) stop other).1 := by
  induction hprunes generalizing machine twin with
  | done hresult => exact ⟨_, halike, .some hresult⟩
  | perform _ ih => exact ih (halike.perform larger _)
  | observe _ ih =>
      rw [Machine.runUnless, Machine.runUnless, halike.twins.world]
      exact ih _ halike
  | @pause pairs ms next other _ ih =>
      obtain ⟨hstops, hawake⟩ := halike.passUnless hlarger stop ms
      rw [runUnless_pause, runUnless_pause, hstops]
      split
      · exact ⟨_, hawake, .none⟩
      · exact ih hawake
  | @request pairs message next other _ ih =>
      have hsent := halike.answer larger message
      obtain ⟨hanswer, -⟩ := halike.twins.answer larger message
      obtain ⟨hstops, hawake⟩ :=
        hsent.passUnless hlarger stop (machine.answer setting message).1.delay
      rw [runUnless_request, runUnless_request, runUnless_pause, runUnless_pause, hanswer, hstops]
      split
      · exact ⟨_, hawake, .none⟩
      · exact ih _ hawake
  | start hdepth _ ih => exact ih _ _ (halike.start hlarger hdepth)
  | tooDeep hdepth _ ih => exact ih _ (halike.start_tooDeep hdepth)

/-- A task and its twin are waited for. -/
theorem Alike.await (halike : Alike setting pairs machine twin)
    (hlarger : setting.engine.maxDepth ≤ larger) {i j : TaskId} (hmem : (i, j) ∈ pairs) :
    Alike setting pairs (machine.await setting i) (twin.await (setting.withLimit larger) j) := by
  have hpaired := halike.paired i j hmem
  have hsame := halike.twins.isOver_eq hpaired
  cases hover : machine.isOver i with
  | true =>
      rw [Machine.await, Machine.await, hsame, if_pos hover, if_pos hover]
      exact halike
  | false =>
      have hawaits := awaits_await setting halike.fueled hover
      have hother := awaits_await (setting.withLimit larger) halike.fueledTwin (hsame.trans hover)
      have hrested : (machine.rest setting).Fueled := halike.fueled
      have hrestedTwin : (twin.rest (setting.withLimit larger)).Fueled := halike.fueledTwin
      have htwins := (halike.twins.rest larger).awaits hlarger hawaits hother
        (rested_rest setting machine) hpaired
      refine ⟨htwins, hawaits.fueled hrested, hother.fueled hrestedTwin, ?_⟩
      exact fun i j hmem => (halike.paired i j hmem).of_depths hawaits.depths

/-- Waiting for tasks gives the outcomes of their twins. -/
theorem Alike.awaitAll {tasks others : List TaskId} (hlarger : setting.engine.maxDepth ≤ larger)
    (hmems : List.Forall₂ (fun i j => (i, j) ∈ pairs) tasks others)
    (halike : Alike setting pairs machine twin) :
    (Background.awaitAll (setting.withLimit larger) others twin).1 =
        (Background.awaitAll setting tasks machine).1 ∧
      Alike setting pairs (Background.awaitAll setting tasks machine).2
        (Background.awaitAll (setting.withLimit larger) others twin).2 := by
  induction hmems generalizing machine twin with
  | nil => exact ⟨rfl, halike⟩
  | @cons i j tasks others hmem _ ih =>
      have hover := halike.await hlarger hmem
      obtain ⟨houtcomes, hafter⟩ := ih hover
      have houtcome := hover.twins.outcome?_eq (hover.paired i j hmem)
      refine ⟨?_, hafter⟩
      rw [Background.awaitAll, Background.awaitAll]
      exact congrArg₂ (fun own rest => Option.toList own ++ rest) houtcome houtcomes

/-- What a machine shows: its world and its clock. -/
def view (machine : Machine σ) : World σ × Nat :=
  (machine.world, machine.clock)

theorem Twins.view_eq (htwins : Twins setting machine twin) : twin.view = machine.view := by
  rw [view, view, htwins.world, htwins.clock]

end Machine

/-- Two runs that nobody can tell apart: they answer the same and take the same
time, they leave the same state and the same calls behind them, and so do their
tasks, both when time passes and when they are waited for. -/
structure SameRun (setting other : Setting σ) (first second : Run × Machine σ) : Prop where
  success : second.1.success = first.1.success
  outcomes : second.1.outcomes = first.1.outcomes
  detached : second.1.detached.length = first.1.detached.length
  view : second.2.view = first.2.view
  later : ∀ stop ms,
    (second.2.passUnless other stop ms).1 = (first.2.passUnless setting stop ms).1 ∧
      (second.2.passUnless other stop ms).2.view = (first.2.passUnless setting stop ms).2.view
  joined : (Background.awaitAll other second.1.detached second.2).1 =
    (Background.awaitAll setting first.1.detached first.2).1
  joinedView : (Background.awaitAll other second.1.detached second.2).2.view =
    (Background.awaitAll setting first.1.detached first.2).2.view

theorem Machine.Alike.sameRun {setting : Setting σ} {larger : Nat}
    {pairs : List (TaskId × TaskId)} {first second : Run × Machine σ}
    (halike : Alike setting pairs first.2 second.2) (hlarger : setting.engine.maxDepth ≤ larger)
    (hruns : Run.Twins pairs first.1 second.1) :
    SameRun setting (setting.withLimit larger) first second := by
  obtain ⟨hjoined, hafter⟩ := halike.awaitAll hlarger hruns.detached
  refine ⟨hruns.success.symm, hruns.outcomes.symm, hruns.detached.length_eq.symm,
    halike.twins.view_eq, fun stop ms => ?_, hjoined, hafter.twins.view_eq⟩
  obtain ⟨hstops, hpassed⟩ := halike.passUnless hlarger stop ms
  exact ⟨hstops, hpassed.twins.view_eq⟩

/-- The script of an action list, and that of the pruned list under another limit. -/
theorem prunes_runList_top (setting : Setting σ) {larger : Nat}
    (hlarger : setting.engine.maxDepth ≤ larger) (context : Context) (actions : List Action) :
    Script.Prunes setting.engine.maxDepth Run.Twins [] (setting.engine.runList 0 context actions)
      ((setting.withLimit larger).engine.runList 0 context
        (Action.pruneList setting.engine.maxDepth actions)) :=
  setting.engine.prunes_runList hlarger 0 (Nat.zero_le _) context actions []

/-- A list runs as its pruned form does under a larger limit. -/
theorem Machine.Alike.sameRun_runList {setting : Setting σ} {larger : Nat}
    {machine twin : Machine σ} (halike : Alike setting [] machine twin)
    (hlarger : setting.engine.maxDepth ≤ larger) (context : Context) (actions : List Action) :
    let script := setting.engine.runList 0 context actions
    let pruned := (setting.withLimit larger).engine.runList 0 context
      (Action.pruneList setting.engine.maxDepth actions)
    SameRun setting (setting.withLimit larger) (machine.run setting script)
        (twin.run (setting.withLimit larger) pruned) ∧
      Alike setting [] (machine.run setting script).2
        (twin.run (setting.withLimit larger) pruned).2 := by
  intro script pruned
  obtain ⟨pairs, hafter, hresult⟩ := halike.runUnless hlarger (fun _ => false)
    (prunes_runList_top setting hlarger context actions)
  rw [runUnless_never, runUnless_never] at hafter hresult
  cases hresult with
  | some hruns => exact ⟨hafter.sameRun hlarger hruns, hafter.mono (List.nil_subset pairs)⟩

/-- The limit for nesting does nothing but prune.  An action below it does not even
look at its condition.  A list runs as its pruned form does under every larger
limit, on a machine that is fresh or has other runs behind it, whether it comes to
its end or is given up on the way.  So the limit does not matter for a list that
does not nest so deep. -/
theorem limit_is_pruning (setting : Setting σ) {larger : Nat}
    (hlarger : setting.engine.maxDepth ≤ larger) :
    (∀ depth context action, setting.engine.maxDepth < depth →
      setting.engine.runAction depth context action =
        .done (.failure (.tooDeep setting.engine.maxDepth))) ∧
    (∀ machine : Machine σ, machine.tasks = [] → machine.queue = [] →
      Machine.Alike setting [] machine machine) ∧
    ∀ machine twin : Machine σ, Machine.Alike setting [] machine twin → ∀ context actions,
      let other := setting.withLimit larger
      let script := setting.engine.runList 0 context actions
      let pruned := other.engine.runList 0 context
        (Action.pruneList setting.engine.maxDepth actions)
      SameRun setting other (machine.run setting script) (twin.run other pruned) ∧
      Machine.Alike setting [] (machine.run setting script).2 (twin.run other pruned).2 ∧
      (∀ stop, (twin.runUnless other stop pruned).1.isSome =
          (machine.runUnless setting stop script).1.isSome ∧
        (twin.runUnless other stop pruned).2.view =
          (machine.runUnless setting stop script).2.view) ∧
      (Action.listNesting actions ≤ setting.engine.maxDepth →
        SameRun setting other (machine.run setting script)
          (twin.run other (other.engine.runList 0 context actions))) := by
  refine ⟨fun depth context action => setting.engine.runAction_of_tooDeep context action,
    fun machine => Machine.alike_self setting, fun machine twin halike context actions => ?_⟩
  intro other script pruned
  obtain ⟨hsame, hafter⟩ := halike.sameRun_runList hlarger context actions
  refine ⟨hsame, hafter, fun stop => ?_, fun hnesting => ?_⟩
  · obtain ⟨pairs, hleft, hresult⟩ :=
      halike.runUnless hlarger stop (prunes_runList_top setting hlarger context actions)
    refine ⟨?_, hleft.twins.view_eq⟩
    generalize (machine.runUnless setting stop script).1 = result at hresult ⊢
    generalize (twin.runUnless other stop pruned).1 = twinResult at hresult ⊢
    cases hresult <;> rfl
  · rw [Action.pruneList_eq_self _ actions hnesting] at hsame
    exact hsame

/-- Surroundings that count calls, and a limit that allows no branches. -/
def Setting.shallow : Setting Nat where
  engine := { maxDepth := 0 }
  host := {
    answer := fun _ _ calls => ({ delay := 7, reply := .ok default }, calls)
    call := fun _ calls => calls + 1
    notify := fun _ calls => calls
    rest_rest := id_eq }

/-- A request with two calls in its branch, one of them in a task of its own. -/
def Action.withCalls : Action :=
  let call : Action := { kind := .closeModal "card" }
  { kind := .callApi default .get none none
    onSuccess := some [{ call with detached := true }, call] }

/-- The limit takes both calls away, and a limit that is larger by one does not. -/
theorem limit_is_pruning_of_calls :
    let machine : Machine Nat := { world := default }
    let other := Setting.shallow.withLimit 1
    let pruned := { Action.withCalls with onSuccess := some [.noop] }
    let first := machine.run .shallow (Setting.shallow.engine.runList 0 default [.withCalls])
    let second := machine.run other (other.engine.runList 0 default [pruned])
    let deeper := machine.run other (other.engine.runList 0 default [.withCalls])
    SameRun .shallow other first second ∧ first.2.view = (default, 7) ∧
      (deeper.2.pass other 1).world.host = 2 := by
  intro machine other pruned first second deeper
  have hpruning := limit_is_pruning .shallow (Nat.le_succ 0)
  have hfresh := hpruning.2.1 machine rfl rfl
  exact ⟨(hpruning.2.2 machine machine hfresh default [.withCalls]).1, rfl, by decide +kernel⟩

end LivePage
