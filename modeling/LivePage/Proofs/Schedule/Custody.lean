import Mathlib.Logic.Relation
import LivePage.Proofs.Schedule.Growth
import LivePage.Schedule.Background

/-!
# Custody of background tasks

A program collects the tasks of its runs, waits for all that it has collected or aborts them,
in any order and while runs and tasks go on.  No task is lost by that, and none is taken
twice: what is released and what is still held comes in the order in which it was taken over,
and a task that was taken over and has not come to its end is held until it is released.
-/

namespace LivePage

/-- The run, where it has ended. -/
def ThreadState.run? : ThreadState → Option Run
  | waiting .. => none
  | ended run => some run

/-- A program that collects tasks, with the page on which they run. -/
structure Keeper (σ : Type) where
  crowd : Crowd σ
  background : Background := {}
  /-- The runs whose tasks were taken over, with their places, as they were left. -/
  emptied : List (Nat × Run) := []
  /-- All tasks that were ever taken over, in order. -/
  given : List TaskId := []
  /-- All tasks that were joined or aborted, in order. -/
  released : List TaskId := []

/-- Tasks are waited for one after the other, under any schedule, and each tells how it
ended. -/
inductive Crowd.Collects (setting : Setting σ) :
    List TaskId → Crowd σ → List Outcome → Crowd σ → Prop where
  | nil {crowd : Crowd σ} : Collects setting [] crowd [] crowd
  | cons {task : TaskId} {rest : List TaskId} {crowd after : Crowd σ} {moves : List Move}
      {outcome : Outcome} {outcomes : List Outcome} :
      (∀ move ∈ moves, move.AbortsOnly []) →
      (crowd.play setting moves).machine.outcome? task = some outcome →
      Collects setting rest (crowd.play setting moves) outcomes after →
      Collects setting (task :: rest) crowd (outcome :: outcomes) after

namespace Keeper

variable {σ : Type}

/-- Nothing was collected yet. -/
def fresh (world : World σ) : Keeper σ where
  crowd := .fresh world

/-- The run at a place as it is now, if it has ended. -/
def run? (keeper : Keeper σ) (i : Nat) : Option Run :=
  match keeper.emptied.find? (·.1 == i) with
  | some (_, run) => some run
  | none => (keeper.crowd.threads[i]?).bind (·.state.run?)

/-- Takes over the tasks of the run at a place. -/
def track (keeper : Keeper σ) (i : Nat) (run : Run) : Keeper σ :=
  let (background, left) := keeper.background.takeOver keeper.crowd.machine run
  { keeper with
    background
    emptied := (i, left) :: keeper.emptied
    given := keeper.given ++ run.detached }

/-- All that was held is released. -/
def release (keeper : Keeper σ) : Keeper σ :=
  { keeper with
    background := {}
    released := keeper.released ++ keeper.background.tasks }

/-- Aborts all that is held. -/
def abortAll (keeper : Keeper σ) : Keeper σ :=
  let (background, machine) := keeper.background.abortAll keeper.crowd.machine
  { keeper.release with crowd := { keeper.crowd with machine }, background }

/-- What may happen next.  Nobody else aborts tasks: only who has taken them over can. -/
inductive Step (setting : Setting σ) : Keeper σ → Keeper σ → Prop where
  | move {keeper : Keeper σ} {move : Move} : move.AbortsOnly [] →
      Step setting keeper { keeper with crowd := keeper.crowd.step setting move }
  | track {keeper : Keeper σ} {i : Nat} {run : Run} : keeper.run? i = some run →
      Step setting keeper (keeper.track i run)
  | join {keeper : Keeper σ} {outcomes : List Outcome} {after : Crowd σ} :
      Crowd.Collects setting keeper.background.tasks keeper.crowd outcomes after →
      Step setting keeper { keeper.release with crowd := after }
  | abort {keeper : Keeper σ} : Step setting keeper keeper.abortAll

/-- What may happen one after the other. -/
abbrev Reaches (setting : Setting σ) : Keeper σ → Keeper σ → Prop :=
  Relation.ReflTransGen (Step setting)

end Keeper

namespace Crowd

variable {σ : Type} {setting : Setting σ} {crowd after : Crowd σ}

theorem keeps_play (setting : Setting σ) (crowd : Crowd σ) (moves : List Move) :
    crowd.machine.Keeps (crowd.play setting moves).machine := by
  induction moves generalizing crowd with
  | nil => exact .refl _
  | cons move rest ih => exact (keeps_step setting crowd move).trans (ih _)

/-- A task that is over does nothing, however long it goes on. -/
theorem actsOf_play_of_isOver {task : TaskId} (hover : crowd.machine.isOver task = true)
    (moves : List Move) :
    (crowd.play setting moves).actsOf (.task task) = crowd.actsOf (.task task) := by
  induction moves generalizing crowd with
  | nil => rfl
  | cons move rest ih =>
      exact (ih ((keeps_step setting crowd move).isOver hover)).trans
        (actsOf_step_of_isOver hover move)

/-- Waiting is a part of a schedule in which nobody aborts. -/
theorem Collects.exists_moves {tasks : List TaskId} {outcomes : List Outcome}
    (hcollects : Collects setting tasks crowd outcomes after) :
    ∃ moves : List Move, (∀ move ∈ moves, move.AbortsOnly []) ∧
      after = crowd.play setting moves := by
  induction hcollects with
  | nil => exact ⟨[], by simp, rfl⟩
  | @cons _ _ _ _ moves _ _ hmoves _ _ ih =>
      obtain ⟨later, hlater, rfl⟩ := ih
      exact ⟨moves ++ later, List.forall_mem_append.2 ⟨hmoves, hlater⟩,
        (play_append setting _ moves later).symm⟩

/-- There is one outcome for every task that was waited for, and it is the one of that task. -/
theorem Collects.outcomes {tasks : List TaskId} {outcomes : List Outcome}
    (hcollects : Collects setting tasks crowd outcomes after) :
    List.Forall₂ (fun task outcome => after.machine.outcome? task = some outcome) tasks
      outcomes := by
  induction hcollects with
  | nil => exact .nil
  | cons _ houtcome hrest ih =>
      obtain ⟨later, -, rfl⟩ := hrest.exists_moves
      exact .cons ((keeps_play setting _ later).outcome?_eq houtcome) ih

/-- The machine waits for all tasks under its own schedule, and that comes to an end. -/
theorem exists_collects_awaitAll {tasks : List TaskId} (horderly : crowd.machine.Orderly)
    (hthere : ∀ task ∈ tasks, task < crowd.machine.tasks.length) :
    ∃ after, Collects setting tasks crowd (Background.awaitAll setting tasks crowd.machine).1
        after ∧
      after.machine = (Background.awaitAll setting tasks crowd.machine).2 := by
  induction tasks generalizing crowd with
  | nil => exact ⟨crowd, .nil, rfl⟩
  | cons task rest ih =>
      obtain ⟨hsteps, hover⟩ :
          Machine.Steps setting crowd.machine (crowd.machine.await setting task) ∧ _ :=
        horderly.await (hthere task (.head rest))
      obtain ⟨moves, hmoves, hmachine, -⟩ := exists_moves_of_steps hsteps
      obtain ⟨outcome, houtcome⟩ := Option.isSome_iff_exists.1 hover
      have hlength := (keeps_play setting crowd moves).length_le
      rw [← hmachine] at houtcome
      have hafter : (crowd.play setting moves).machine.Orderly := hmachine ▸ horderly.steps hsteps
      obtain ⟨after, hcollects, hlast⟩ := ih hafter fun other hother =>
        Nat.lt_of_lt_of_le (hthere other (.tail task hother)) hlength
      rw [Background.awaitAll, ← hmachine, houtcome]
      exact ⟨after, .cons hmoves houtcome hcollects, hlast⟩

/-- Tasks that are not over become aborted when all of a list are aborted. -/
theorem isAborted_play_abort {tasks : List TaskId} {task : TaskId} (htask : task ∈ tasks)
    (hthere : task < crowd.machine.tasks.length) (hopen : crowd.machine.isOver task = false) :
    (crowd.play setting (tasks.map .abort)).machine.IsAborted task := by
  induction tasks generalizing crowd with
  | nil => exact absurd htask List.not_mem_nil
  | cons first rest ih =>
      by_cases heq : first = task
      · subst heq
        exact (keeps_play setting (crowd.step setting (.abort first)) _).isAborted
          (Machine.isAborted_abort hthere hopen)
      · have hlength := (keeps_step setting crowd (.abort first)).length_le
        apply ih ((List.mem_cons.1 htask).resolve_left (Ne.symm heq))
          (Nat.lt_of_lt_of_le hthere hlength)
        exact (Machine.isOver_abort_ne heq).trans hopen

end Crowd

namespace Keeper

variable {σ : Type} {setting : Setting σ} {world : World σ} {keeper next : Keeper σ}

/-- What holds of a program and of what it collected at every moment. -/
structure Sound (setting : Setting σ) (world : World σ) (keeper : Keeper σ) : Prop where
  recorded : keeper.crowd.Recorded setting world
  orderly : keeper.crowd.machine.Orderly
  /-- Only tasks that were released are aborted. -/
  aborted : ∀ task, keeper.crowd.machine.IsAborted task → task ∈ keeper.released
  /-- A run whose tasks were taken over has none left. -/
  emptied : ∀ entry ∈ keeper.emptied, entry.2.detached = []
  /-- The tasks that were taken over are those of such runs. -/
  started : ∀ task ∈ keeper.given,
    ∃ entry ∈ keeper.emptied, keeper.crowd.Starter (.thread entry.1) task
  nodup : keeper.given.Nodup
  ordered : (keeper.released ++ keeper.background.tasks).Sublist keeper.given
  held : ∀ task ∈ keeper.given, task ∉ keeper.released →
    keeper.crowd.machine.isOver task = false → task ∈ keeper.background.tasks

theorem sound_fresh (world : World σ) : Sound setting world (fresh world) where
  recorded := Crowd.recorded_fresh world
  orderly := (Machine.tidy_of_tasks_eq_nil rfl).orderly
  aborted := fun _ haborted => by cases haborted
  emptied := by simp [fresh]
  started := by simp [fresh]
  nodup := List.nodup_nil
  ordered := .refl _
  held := by simp [fresh]

/-- The tasks that were taken over and not released end by themselves. -/
theorem Sound.isFinished (hsound : keeper.Sound setting world) {task : TaskId}
    (hkept : task ∉ keeper.released) (hover : keeper.crowd.machine.isOver task = true) :
    keeper.crowd.machine.IsFinished task :=
  (Machine.isFinished_or_isAborted_of_isOver hover).resolve_right
    fun haborted => hkept (hsound.aborted task haborted)

theorem Sound.not_mem_released (hsound : keeper.Sound setting world) {task : TaskId}
    (htask : task ∈ keeper.background.tasks) : task ∉ keeper.released := by
  intro hreleased
  obtain ⟨-, -, hdistinct⟩ := List.nodup_append.1 (hsound.nodup.sublist hsound.ordered)
  exact hdistinct task hreleased task htask rfl

theorem Sound.lt_length (hsound : keeper.Sound setting world) {task : TaskId}
    (htask : task ∈ keeper.background.tasks) : task < keeper.crowd.machine.tasks.length := by
  have hgiven := hsound.ordered.subset (List.mem_append_right _ htask)
  obtain ⟨entry, -, hstarter⟩ := hsound.started task hgiven
  exact hsound.recorded.lt_length_of_starter hstarter

/-- What goes on meanwhile loses no task, if none but released ones are aborted. -/
theorem Sound.move (hsound : keeper.Sound setting world) {move : Move}
    (hmove : move.AbortsOnly keeper.released) :
    Sound setting world { keeper with crowd := keeper.crowd.step setting move } where
  recorded := hsound.recorded.change (Crowd.change_step setting keeper.crowd move)
  orderly := Crowd.orderly_step hsound.orderly move
  aborted := fun task haborted => by
    rcases Crowd.isAborted_of_step hmove haborted with hbefore | hreleased
    · exact hsound.aborted task hbefore
    · exact hreleased
  emptied := hsound.emptied
  started := fun task hgiven => by
    obtain ⟨entry, hentry, job, hjob⟩ := hsound.started task hgiven
    have hbefore := (Crowd.change_step setting keeper.crowd move).prefix_history
    exact ⟨entry, hentry, job, hbefore.subset hjob⟩
  nodup := hsound.nodup
  ordered := hsound.ordered
  held := fun task hgiven hkept hopen => by
    apply hsound.held task hgiven hkept
    by_contra hover
    have hstill := (Crowd.keeps_step setting keeper.crowd move).isOver (by simpa using hover)
    exact Bool.false_ne_true (hopen.symm.trans hstill)

theorem Sound.play (hsound : keeper.Sound setting world) {moves : List Move}
    (hmoves : ∀ move ∈ moves, move.AbortsOnly keeper.released) :
    Sound setting world { keeper with crowd := keeper.crowd.play setting moves } := by
  induction moves generalizing keeper with
  | nil => exact hsound
  | cons move rest ih =>
      obtain ⟨hmove, hrest⟩ := List.forall_mem_cons.1 hmoves
      exact ih (hsound.move hmove) hrest

/-- A run has started the tasks that it has, and none of them was taken over before. -/
theorem Sound.detached (hsound : keeper.Sound setting world) {i : Nat} {run : Run}
    (hrun : keeper.run? i = some run) :
    run.detached.Nodup ∧
      (∀ task ∈ run.detached, keeper.crowd.Starter (.thread i) task) ∧
      ∀ task ∈ run.detached, task ∉ keeper.given := by
  rw [run?] at hrun
  split at hrun
  -- a run that was emptied has nothing more to give
  · next place left hfind =>
      obtain rfl := Option.some.inj hrun
      rw [hsound.emptied _ (List.mem_of_find?_eq_some hfind)]
      simp
  · next hnone =>
      obtain ⟨⟨errand, state⟩, hthread, hstate⟩ := Option.bind_eq_some_iff.1 hrun
      obtain rfl : state = .ended run := by
        cases state with
        | waiting => cases hstate
        | ended other => rw [Option.some.inj hstate]
      obtain ⟨hnodup, hstarter⟩ := hsound.recorded.starter_of_detached hthread
      refine ⟨hnodup, hstarter, fun task htask hgiven => ?_⟩
      -- a task that was taken over before came from an emptied run, and it was started once
      obtain ⟨entry, hentry, hother⟩ := hsound.started task hgiven
      have hsame := hsound.recorded.starter_unique (hstarter task htask) hother
      have hnot := List.find?_eq_none.1 hnone entry hentry
      rw [Actor.thread.inj hsame] at hnot
      simp at hnot

theorem Sound.track (hsound : keeper.Sound setting world) {i : Nat} {run : Run}
    (hrun : keeper.run? i = some run) : (keeper.track i run).Sound setting world := by
  obtain ⟨hnodup, hstarter, hnew⟩ := hsound.detached hrun
  constructor
  · exact hsound.recorded
  · exact hsound.orderly
  · exact hsound.aborted
  · exact List.forall_mem_cons.2 ⟨rfl, hsound.emptied⟩
  · intro task htask
    rcases List.mem_append.1 htask with hgiven | hdetached
    · obtain ⟨entry, hentry, hstarted⟩ := hsound.started task hgiven
      exact ⟨entry, .tail _ hentry, hstarted⟩
    · exact ⟨_, .head _, hstarter task hdetached⟩
  · refine List.nodup_append.2 ⟨hsound.nodup, hnodup, ?_⟩
    rintro task hgiven other hother rfl
    exact hnew task hother hgiven
  · have hfewer : (keeper.released ++
        keeper.background.tasks.filter (!keeper.crowd.machine.isOver ·)).Sublist keeper.given :=
      (List.filter_sublist.append_left _).trans hsound.ordered
    have hall := hfewer.append (List.Sublist.refl run.detached)
    rwa [List.append_assoc] at hall
  · intro task htask hkept hopen
    rcases List.mem_append.1 htask with hgiven | hdetached
    · refine List.mem_append_left _ (List.mem_filter.2 ⟨hsound.held task hgiven hkept hopen, ?_⟩)
      rw [show keeper.crowd.machine.isOver task = false from hopen]
      rfl
    · exact List.mem_append_right _ hdetached

theorem Sound.release (hsound : keeper.Sound setting world) :
    keeper.release.Sound setting world where
  recorded := hsound.recorded
  orderly := hsound.orderly
  aborted := fun task haborted => List.mem_append_left _ (hsound.aborted task haborted)
  emptied := hsound.emptied
  started := hsound.started
  nodup := hsound.nodup
  ordered := by
    rw [Keeper.release, List.append_nil]
    exact hsound.ordered
  held := fun task hgiven hkept hopen => by
    rw [Keeper.release, List.mem_append, not_or] at hkept
    exact absurd (hsound.held task hgiven hkept.1 hopen) hkept.2

/-- Aborting all that is held is releasing it and aborting it by moves. -/
theorem abortAll_eq (setting : Setting σ) (keeper : Keeper σ) :
    keeper.abortAll = { keeper.release with
      crowd := keeper.crowd.play setting (keeper.background.tasks.map .abort) } := by
  have hfold (tasks : List TaskId) (crowd : Crowd σ) :
      crowd.play setting (tasks.map .abort) =
        { crowd with machine := tasks.foldl Machine.abort crowd.machine } := by
    induction tasks generalizing crowd with
    | nil => rfl
    | cons task rest ih => exact ih _
  rw [hfold]
  rfl

theorem Sound.abortAll (hsound : keeper.Sound setting world) :
    keeper.abortAll.Sound setting world := by
  rw [abortAll_eq setting]
  refine hsound.release.play (List.forall_mem_map.2 fun task htask => ?_)
  exact List.mem_append_right _ htask

theorem Sound.join (hsound : keeper.Sound setting world) {outcomes : List Outcome}
    {after : Crowd σ}
    (hcollects : Crowd.Collects setting keeper.background.tasks keeper.crowd outcomes after) :
    Sound setting world { keeper.release with crowd := after } := by
  obtain ⟨moves, hmoves, rfl⟩ := hcollects.exists_moves
  exact hsound.release.play fun move hmove => (hmoves move hmove).of_nil _

/-- Nothing that may happen loses a task. -/
theorem Sound.step (hsound : keeper.Sound setting world) (hstep : Step setting keeper next) :
    next.Sound setting world := by
  cases hstep with
  | move hmove => exact hsound.move (hmove.of_nil _)
  | track hrun => exact hsound.track hrun
  | join hcollects => exact hsound.join hcollects
  | abort => exact hsound.abortAll

theorem sound_of_reaches (hreaches : Reaches setting (fresh world) keeper) :
    keeper.Sound setting world := by
  induction hreaches with
  | refl => exact sound_fresh world
  | tail _ hstep ih => exact ih.step hstep

/-- Whatever happens is a part of a schedule of the page. -/
theorem Step.exists_moves (hstep : Step setting keeper next) :
    ∃ moves, next.crowd = keeper.crowd.play setting moves := by
  cases hstep with
  | @move move => exact ⟨[move], rfl⟩
  | track => exact ⟨[], rfl⟩
  | join hcollects =>
      obtain ⟨moves, -, hafter⟩ := hcollects.exists_moves
      exact ⟨moves, hafter⟩
  | abort => exact ⟨_, congrArg crowd (abortAll_eq setting keeper)⟩

theorem Reaches.exists_moves (hreaches : Reaches setting keeper next) :
    ∃ moves, next.crowd = keeper.crowd.play setting moves := by
  induction hreaches with
  | refl => exact ⟨[], rfl⟩
  | tail _ hstep ih =>
      obtain ⟨moves, hmoves⟩ := ih
      obtain ⟨later, hlater⟩ := hstep.exists_moves
      exact ⟨moves ++ later, by rw [hlater, hmoves, Crowd.play_append]⟩

theorem reaches_play (keeper : Keeper σ) {moves : List Move}
    (hmoves : ∀ move ∈ moves, move.AbortsOnly []) :
    Reaches setting keeper { keeper with crowd := keeper.crowd.play setting moves } := by
  induction moves generalizing keeper with
  | nil => exact .refl
  | cons move rest ih =>
      obtain ⟨hmove, hrest⟩ := List.forall_mem_cons.1 hmoves
      exact .head (.move hmove) (ih _ hrest)

/-- What was held and has not ended by itself is aborted, and nothing of it goes on. -/
theorem Sound.aborts (hsound : keeper.Sound setting world) {later : Keeper σ}
    (hlater : Reaches setting keeper.abortAll later) {task : TaskId}
    (htask : task ∈ keeper.background.tasks) :
    later.crowd.actsOf (.task task) = keeper.crowd.actsOf (.task task) ∧
      (¬ keeper.crowd.machine.IsFinished task → later.crowd.machine.IsAborted task) := by
  obtain ⟨moves, hmoves⟩ := hlater.exists_moves
  have hkeeps : keeper.abortAll.crowd.machine.Keeps later.crowd.machine :=
    hmoves ▸ Crowd.keeps_play setting _ moves
  have haborted (hopen : keeper.crowd.machine.isOver task = false) :
      keeper.abortAll.crowd.machine.IsAborted task := by
    rw [abortAll_eq setting]
    exact Crowd.isAborted_play_abort htask (hsound.lt_length htask) hopen
  have hover : keeper.abortAll.crowd.machine.isOver task = true := by
    cases hbefore : keeper.crowd.machine.isOver task with
    | true =>
        rw [abortAll_eq setting]
        exact (Crowd.keeps_play setting keeper.crowd _).isOver hbefore
    | false => exact (haborted hbefore).isOver
  refine ⟨?_, fun hopen => hkeeps.isAborted (haborted ?_)⟩
  · rw [hmoves]
    exact Crowd.actsOf_play_of_isOver hover moves
  · by_contra hbefore
    exact hopen (hsound.isFinished (hsound.not_mem_released htask) (by simpa using hbefore))

/-- Every task that is waited for ends by itself. -/
theorem Sound.joins (hsound : keeper.Sound setting world) {outcomes : List Outcome}
    {after : Crowd σ}
    (hcollects : Crowd.Collects setting keeper.background.tasks keeper.crowd outcomes after) :
    List.Forall₂
      (fun task outcome => (after.machine.tasks[task]?).map Task.state = some (.finished outcome))
      keeper.background.tasks outcomes := by
  obtain ⟨moves, hmoves, rfl⟩ := hcollects.exists_moves
  have hafter := hsound.play fun move hmove => (hmoves move hmove).of_nil keeper.released
  have hkept : ∀ task ∈ keeper.background.tasks,
      ¬ (keeper.crowd.play setting moves).machine.IsAborted task :=
    fun task htask haborted => hsound.not_mem_released htask (hafter.aborted task haborted)
  have hboth := (List.forall₂_and_left ..).2 ⟨hkept, hcollects.outcomes⟩
  exact hboth.imp fun _ _ hpair => Machine.eq_finished_of_outcome? hpair.2 hpair.1

/-- Custody.  Whatever is tracked, joined and aborted in whatever order, and whatever runs and
tasks do meanwhile: no task is taken over twice, and what was released and what is held comes
in the order in which it was taken over.  A task that was taken over and has neither ended nor
been released is held.  Tracking leaves the run without tasks and drops only tasks that have
ended.  Joining comes to an end, leaves nothing and gives one outcome for every task that was
held, in their order.  Aborting leaves nothing, and no task that was held does anything
more. -/
theorem custody (setting : Setting σ) {world : World σ} {keeper : Keeper σ}
    (hreaches : Reaches setting (fresh world) keeper) :
    keeper.given.Nodup ∧
      (keeper.released ++ keeper.background.tasks).Sublist keeper.given ∧
      (∀ task ∈ keeper.given, task ∉ keeper.released →
        ¬ keeper.crowd.machine.IsFinished task → task ∈ keeper.background.tasks) ∧
      (∀ i run, keeper.run? i = some run →
        (keeper.track i run).run? i = some { run with detached := [] } ∧
          ∃ kept : List TaskId, (keeper.track i run).background.tasks = kept ++ run.detached ∧
            kept.Sublist keeper.background.tasks ∧
            ∀ task ∈ keeper.background.tasks, task ∉ kept →
              keeper.crowd.machine.IsFinished task) ∧
      (let joined := keeper.background.joinAll setting keeper.crowd.machine
       joined.2.1.tasks = [] ∧ ∃ after, after.machine = joined.2.2 ∧
         Crowd.Collects setting keeper.background.tasks keeper.crowd joined.1 after) ∧
      (∀ outcomes after,
        Crowd.Collects setting keeper.background.tasks keeper.crowd outcomes after →
          List.Forall₂ (fun task outcome =>
            (after.machine.tasks[task]?).map Task.state = some (.finished outcome))
            keeper.background.tasks outcomes) ∧
      keeper.abortAll.background.tasks = [] ∧
      ∀ later, Reaches setting keeper.abortAll later → ∀ task ∈ keeper.background.tasks,
        later.crowd.actsOf (.task task) = keeper.crowd.actsOf (.task task) ∧
          (¬ keeper.crowd.machine.IsFinished task → later.crowd.machine.IsAborted task) := by
  have hsound : keeper.Sound setting world := sound_of_reaches hreaches
  refine ⟨hsound.nodup, hsound.ordered, fun task hgiven hkept hopen => ?_, fun i run _ => ?_, ?_,
    fun outcomes after hcollects => hsound.joins hcollects, rfl,
    fun later hlater task htask => hsound.aborts hlater htask⟩
  · apply hsound.held task hgiven hkept
    by_contra hover
    exact hopen (hsound.isFinished hkept (by simpa using hover))
  · refine ⟨?_, _, rfl, List.filter_sublist, fun task htask hdropped => ?_⟩
    · simp [run?, Keeper.track, Background.takeOver]
    · apply hsound.isFinished (hsound.not_mem_released htask)
      by_contra hopen
      exact hdropped (List.mem_filter.2 ⟨htask, by simpa using hopen⟩)
  · obtain ⟨after, hcollects, hmachine⟩ :=
      Crowd.exists_collects_awaitAll hsound.orderly fun _ => hsound.lt_length
    exact ⟨rfl, after, hmachine, hcollects⟩

/-- A run that leaves two tasks, of which the second one waits. -/
def leavingTwo : Errand where
  actions := [
    { kind := .closeModal "m", detached := true },
    { kind := .closeModal "m", detached := true, delay := some 5 }]

/-- The tasks of one run were taken over. -/
def ofOneRun : Keeper Nat :=
  track { crowd := (Crowd.fresh { page := default, host := 0 }).play .counting [.enter leavingTwo] }
    0 { detached := [0, 1] }

/-- The tasks of another run were taken over, when one of the first two had ended. -/
def ofTwoRuns : Keeper Nat :=
  track { ofOneRun with
    crowd := ofOneRun.crowd.play .counting [.turn 0, .turn 1, .enter leavingTwo] }
    1 { detached := [2, 3] }

/-- Three tasks are held, and all are joined; the one that waits does nothing more if they are
aborted. -/
theorem custody_of_two_runs :
    Reaches .counting (fresh { page := default, host := 0 }) ofTwoRuns ∧
      ofTwoRuns.given = [0, 1, 2, 3] ∧ ofTwoRuns.background.tasks = [1, 2, 3] ∧
      (∃ outcomes after, Crowd.Collects .counting [1, 2, 3] ofTwoRuns.crowd outcomes after) ∧
      ∀ later, Reaches .counting ofTwoRuns.abortAll later →
        later.crowd.actsOf (.task 1) = [.paused 5] ∧ later.crowd.machine.IsAborted 1 := by
  have hone : Reaches .counting (fresh { page := default, host := 0 }) ofOneRun :=
    (reaches_play _ (by simp [Move.AbortsOnly])).tail (.track rfl)
  have htwo : Reaches .counting ofOneRun ofTwoRuns :=
    (reaches_play _ (by simp [Move.AbortsOnly])).tail (.track rfl)
  have htasks : ofTwoRuns.background.tasks = [1, 2, 3] := by decide +kernel
  have hacts : ofTwoRuns.crowd.actsOf (.task 1) = [.paused 5] := rfl
  have hopen : ¬ ofTwoRuns.crowd.machine.IsFinished 1 := by
    rintro ⟨outcome, hfinished⟩
    cases hfinished
  obtain ⟨-, -, -, -, ⟨-, after, -, hcollects⟩, -, -, haborts⟩ :=
    custody .counting (hone.trans htwo)
  rw [htasks] at hcollects haborts
  refine ⟨hone.trans htwo, by decide +kernel, htasks, ⟨_, after, hcollects⟩, fun later hlater => ?_⟩
  obtain ⟨hsame, haborted⟩ := haborts later hlater 1 (by decide)
  exact ⟨hsame.trans hacts, haborted hopen⟩

end Keeper

end LivePage
