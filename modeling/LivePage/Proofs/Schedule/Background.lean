import LivePage.Proofs.Run.Report
import LivePage.Proofs.Schedule.Fifo
import LivePage.Schedule.Background

/-!
# Waiting for background actions

What a program that collects the tasks of all its runs has waited for when it has
joined them.  It collects the tasks that were started at the top of an action
list, and those are over.  The tasks that were started inside of branches are
reported by nobody: the program waits for none of them, and any of them may still
wait for a delay or a reply.
-/

namespace LivePage

namespace Machine

variable {σ : Type} {setting : Setting σ}

/-- A task that was started at the top of an action list. -/
def IsRoot (machine : Machine σ) (i : TaskId) : Prop :=
  ∃ task : Task, machine.tasks[i]? = some task ∧ task.job.depth = 0

theorem Keeps.isRoot {machine after : Machine σ} (hkeeps : machine.Keeps after) {i : TaskId}
    (hroot : machine.IsRoot i) : after.IsRoot i := by
  obtain ⟨task, htask, hdepth⟩ := hroot
  obtain ⟨other, hother, hjob, -⟩ := hkeeps i task htask
  exact ⟨other, hother, by rw [hjob, hdepth]⟩

/-- The tasks that start in a step stand inside of branches. -/
theorem Tidy.isRoot_of_step {machine after : Machine σ} (htidy : machine.Tidy)
    (hstep : Step setting machine after) {i : TaskId} (hroot : after.IsRoot i) :
    machine.IsRoot i := by
  obtain ⟨moved, jobs, htasks, hmoved, hjobs⟩ := hstep.evolves
  obtain ⟨task, htask, hdepth⟩ := hroot
  rw [htasks, List.getElem?_append] at htask
  split at htask
  · next hold =>
      have hlength : i < machine.tasks.length := by
        rw [hmoved.length_eq]
        exact hold
      obtain ⟨other, hother, hbecomes⟩ :=
        getElem?_of_forall₂ hmoved (List.getElem?_eq_getElem hlength)
      obtain rfl := Option.some.inj (htask.symm.trans hother)
      exact ⟨_, List.getElem?_eq_getElem hlength, by rw [← hbecomes.1, hdepth]⟩
  · obtain ⟨job, hjob, rfl⟩ := List.mem_map.1 (List.mem_of_getElem? htask)
    have hdeeper := ((hjobs job hjob).nested htidy).1
    exact absurd hdepth (Nat.ne_of_gt hdeeper)

theorem Tidy.isRoot_iff_of_steps {machine after : Machine σ} (htidy : machine.Tidy)
    (hsteps : Steps setting machine after) (i : TaskId) : after.IsRoot i ↔ machine.IsRoot i := by
  refine ⟨fun hroot => ?_, hsteps.keeps.isRoot⟩
  induction hsteps with
  | refl => exact hroot
  | tail hbefore hstep ih => exact ih ((htidy.steps hbefore).isRoot_of_step hstep hroot)

theorem isRoot_start_iff (machine : Machine σ) (job : Job) (i : TaskId) :
    (machine.start setting job).2.IsRoot i ↔
      machine.IsRoot i ∨ (i = machine.tasks.length ∧ job.depth = 0) := by
  constructor
  · rintro ⟨task, htask, hdepth⟩
    rw [start, List.getElem?_append] at htask
    split at htask
    · exact .inl ⟨task, htask, hdepth⟩
    · next hlength =>
        have hindex := (List.getElem?_eq_some_iff.1 htask).1
        rw [List.length_singleton] at hindex
        obtain rfl := List.mem_singleton.1 (List.mem_of_getElem? htask)
        exact .inr ⟨Nat.le_antisymm (by omega) (by omega), hdepth⟩
  · rintro (hroot | ⟨rfl, hdepth⟩)
    · exact (keeps_start machine job).isRoot hroot
    · exact ⟨⟨job, .ready (setting.engine.runJob job)⟩, by simp [start], hdepth⟩

/-- What a script in the foreground leaves behind, under any schedule. -/
structure Left (machine after : Machine σ) (acts : List Act) : Prop where
  tidy : after.Tidy
  keeps : machine.Keeps after
  isRoot_iff : ∀ i, after.IsRoot i ↔ machine.IsRoot i ∨ i ∈ Act.tasksAt 0 acts

theorem Left.of_steps {machine awake after : Machine σ} {acts : List Act} (act : Act)
    (hact : act.taskAt? 0 = none) (htidy : machine.Tidy) (hsteps : Steps setting machine awake)
    (hleft : Left awake after acts) : Left machine after (act :: acts) where
  tidy := hleft.tidy
  keeps := hsteps.keeps.trans hleft.keeps
  isRoot_iff := by
    intro i
    rw [hleft.isRoot_iff, htidy.isRoot_iff_of_steps hsteps, Act.tasksAt, Act.tasksAt,
      List.filterMap_cons_none hact]

/-- A script in the foreground goes along one of its ways, and the tasks at the
top that are new are those that it started itself. -/
theorem Runs.exists_walk {script : Script α} {machine after : Machine σ} {result : α}
    (hruns : Runs setting script machine result after) (htidy : machine.Tidy) :
    ∃ acts, Script.Walk script acts result ∧ Left machine after acts := by
  induction hruns with
  | @done result machine =>
      exact ⟨[], .done, htidy, .refl machine, fun i => by simp [Act.tasksAt]⟩
  | perform _ ih =>
      obtain ⟨acts, hwalk, hleft⟩ := ih (htidy.withWorld _)
      exact ⟨_, .perform hwalk, hleft.tidy, hleft.keeps, hleft.isRoot_iff⟩
  | observe _ ih =>
      obtain ⟨acts, hwalk, hleft⟩ := ih htidy
      exact ⟨_, .observe hwalk, hleft.tidy, hleft.keeps, hleft.isRoot_iff⟩
  | pause hsteps _ _ ih =>
      obtain ⟨acts, hwalk, hleft⟩ := ih (htidy.steps hsteps)
      exact ⟨_, .pause hwalk, .of_steps (.paused _) rfl htidy hsteps hleft⟩
  | @request message next machine awake after result hsteps _ _ ih =>
      have hsent := htidy.withWorld (machine.answer setting message).2.world
      obtain ⟨acts, hwalk, hleft⟩ := ih (hsent.steps hsteps)
      have hwhole := Left.of_steps (.asked message (machine.answer setting message).1.reply) rfl
        hsent hsteps hleft
      exact ⟨_, .request hwalk, hwhole.tidy, hwhole.keeps, hwhole.isRoot_iff⟩
  | @start job next machine after result _ ih =>
      obtain ⟨acts, hwalk, hleft⟩ := ih (htidy.start job)
      refine ⟨_, .start hwalk, hleft.tidy, (keeps_start machine job).trans hleft.keeps, fun i => ?_⟩
      rw [hleft.isRoot_iff, isRoot_start_iff, or_assoc]
      apply or_congr_right
      by_cases hdepth : job.depth = 0 <;> simp [Act.tasksAt, Act.taskAt?, hdepth]

end Machine

/-- Takes over the tasks of a run that was dispatched, if there was one. -/
def Background.trackResult (background : Background) (machine : Machine σ) :
    Except DispatchError (Option Run) → Background
  | .ok (some run) => background.track machine run
  | _ => background

/-- A machine on which a program runs a page, with the tasks that the program has
collected: it loads the page and dispatches records, in any order and under any
schedule, and takes over the tasks of every run. -/
inductive Hosted (session : Session) (setting : Setting σ) : Machine σ → Background → Prop where
  | begin {machine : Machine σ} : machine.tasks = [] → Hosted session setting machine {}
  | steps {machine after : Machine σ} {background : Background} :
      Hosted session setting machine background → Machine.Steps setting machine after →
      Hosted session setting after background
  | withWorld {machine : Machine σ} {background : Background} (world : World σ) :
      Hosted session setting machine background →
      Hosted session setting { machine with world } background
  | load {machine after : Machine σ} {background : Background} {runs : List (String × Run)} :
      Hosted session setting machine background →
      Machine.Runs setting session.load machine runs after →
      Hosted session setting after
        (runs.foldl (fun background run => background.track after run.2) background)
  | dispatch {machine after : Machine σ} {background : Background} {record : TriggerRecord}
      {result : Except DispatchError (Option Run)} :
      Hosted session setting machine background →
      Machine.Runs setting (session.dispatch record) machine result after →
      Hosted session setting after (background.trackResult after result)
  | dispatchValue {machine after : Machine σ} {background : Background} {raw : Json}
      {result : Except DispatchError (Option Run)} :
      Hosted session setting machine background →
      Machine.Runs setting (session.dispatchValue raw) machine result after →
      Hosted session setting after (background.trackResult after result)

namespace Background

variable {σ : Type} {setting : Setting σ}

/-- The tasks behind all tasks at the top: each of those is over or collected. -/
structure Tracks (machine : Machine σ) (tasks : List TaskId) : Prop where
  isOver_or_mem : ∀ i, machine.IsRoot i → machine.isOver i = true ∨ i ∈ tasks
  isRoot : ∀ i ∈ tasks, machine.IsRoot i

theorem Tracks.of_left {machine after : Machine σ} {tasks : List TaskId} {acts : List Act}
    (htracks : Tracks machine tasks) (hleft : machine.Left after acts) :
    Tracks after (tasks ++ Act.tasksAt 0 acts) where
  isOver_or_mem := by
    intro i hroot
    rw [List.mem_append]
    rcases (hleft.isRoot_iff i).1 hroot with hroot | hnew
    · rcases htracks.isOver_or_mem i hroot with hover | hmem
      · exact .inl (hleft.keeps.isOver hover)
      · exact .inr (.inl hmem)
    · exact .inr (.inr hnew)
  isRoot := by
    intro i hmem
    rw [hleft.isRoot_iff]
    rcases List.mem_append.1 hmem with hmem | hmem
    · exact .inl (htracks.isRoot i hmem)
    · exact .inr hmem

/-- The tasks that are dropped when others are taken over are over. -/
theorem Tracks.track {machine : Machine σ} {background : Background} {run : Run}
    {rest : List TaskId} (htracks : Tracks machine (background.tasks ++ (run.detached ++ rest))) :
    Tracks machine ((background.track machine run).tasks ++ rest) where
  isOver_or_mem := by
    intro i hroot
    rcases htracks.isOver_or_mem i hroot with hover | hmem
    · exact .inl hover
    · by_cases hover : machine.isOver i = true
      · exact .inl hover
      · refine .inr ?_
        simp only [Background.track, List.mem_append, List.mem_filter] at hmem ⊢
        rcases hmem with hold | hnew | hrest
        · exact .inl (.inl ⟨hold, by simpa using hover⟩)
        · exact .inl (.inr hnew)
        · exact .inr hrest
  isRoot := by
    intro i hmem
    apply htracks.isRoot i
    simp only [Background.track, List.mem_append, List.mem_filter] at hmem ⊢
    rcases hmem with (⟨hold, -⟩ | hnew) | hrest
    · exact .inl hold
    · exact .inr (.inl hnew)
    · exact .inr (.inr hrest)

theorem Tracks.foldl_track {machine : Machine σ} {background : Background}
    {runs : List (String × Run)}
    (htracks : Tracks machine (background.tasks ++ runs.flatMap fun run => run.2.detached)) :
    Tracks machine
      (runs.foldl (fun background run => background.track machine run.2) background).tasks := by
  induction runs generalizing background with
  | nil => simpa using htracks
  | cons run rest ih =>
      rw [List.flatMap_cons] at htracks
      exact ih htracks.track

theorem Tracks.trackResult {machine : Machine σ} {background : Background}
    {result : Except DispatchError (Option Run)}
    (htracks : Tracks machine (background.tasks ++ Session.reported result)) :
    Tracks machine (background.trackResult machine result).tasks := by
  match result with
  | .ok (some run) =>
      have hrun : Session.reported (.ok (some run)) = run.detached ++ [] := by
        simp [Session.reported, Run.reported]
      rw [hrun] at htracks
      simpa [Background.trackResult] using htracks.track
  | .ok none | .error error =>
      simpa [Background.trackResult, Session.reported, Run.reported] using htracks

theorem Tracks.steps {machine after : Machine σ} {tasks : List TaskId}
    (htracks : Tracks machine tasks) (htidy : machine.Tidy)
    (hsteps : Machine.Steps setting machine after) : Tracks after tasks where
  isOver_or_mem := by
    intro i hroot
    rcases htracks.isOver_or_mem i ((htidy.isRoot_iff_of_steps hsteps i).1 hroot) with hover | hmem
    · exact .inl (hsteps.keeps.isOver hover)
    · exact .inr hmem
  isRoot := fun i hmem => hsteps.keeps.isRoot (htracks.isRoot i hmem)

end Background

/-- At every moment of a program each task at the top is over or collected. -/
theorem Hosted.tracks {session : Session} {setting : Setting σ} {machine : Machine σ}
    {background : Background} (hhosted : Hosted session setting machine background) :
    machine.Tidy ∧ Background.Tracks machine background.tasks := by
  induction hhosted with
  | begin hnone =>
      refine ⟨Machine.tidy_of_tasks_eq_nil hnone, ⟨?_, by simp⟩⟩
      rintro i ⟨task, htask, -⟩
      simp [hnone] at htask
  | steps _ hsteps ih => exact ⟨ih.1.steps hsteps, ih.2.steps ih.1 hsteps⟩
  | withWorld world _ ih => exact ⟨ih.1.withWorld world, ih.2.isOver_or_mem, ih.2.isRoot⟩
  | load _ hruns ih =>
      obtain ⟨acts, hwalk, hleft⟩ := hruns.exists_walk ih.1
      have htasks := (session.reports_load acts _ hwalk).1
      exact ⟨hleft.tidy, (htasks ▸ ih.2.of_left hleft).foldl_track⟩
  | dispatch _ hruns ih =>
      obtain ⟨acts, hwalk, hleft⟩ := hruns.exists_walk ih.1
      have htasks := (session.reports_dispatch _ acts _ hwalk).1
      exact ⟨hleft.tidy, (htasks ▸ ih.2.of_left hleft).trackResult⟩
  | dispatchValue _ hruns ih =>
      obtain ⟨acts, hwalk, hleft⟩ := hruns.exists_walk ih.1
      have htasks := (session.reports_dispatchValue _ acts _ hwalk).1
      exact ⟨hleft.tidy, (htasks ▸ ih.2.of_left hleft).trackResult⟩

/-- The page has no detached action inside of a branch. -/
def Session.IsPlain (session : Session) : Prop :=
  ∀ action ∈ session.actions, action.isPlain = true

namespace Machine

variable {σ : Type} {setting : Setting σ}

/-- All tasks stand at the top, and none of them will start another one. -/
def AllPlain (machine : Machine σ) : Prop :=
  ∀ task ∈ machine.tasks, task.job.depth = 0 ∧ task.job.action.isPlain = true

theorem AllPlain.step {machine after : Machine σ} (hplain : machine.AllPlain)
    (htidy : machine.Tidy) (hstep : Step setting machine after) : after.AllPlain := by
  refine hstep.evolves.forall_tasks hplain (fun task other hown hbecomes => ?_) fun job hmay => ?_
  · rw [hbecomes.1]
    exact hown
  · obtain ⟨-, task, htask, hnot⟩ := hmay.nested htidy
    rw [(hplain task htask).2] at hnot
    cases hnot

theorem AllPlain.steps {machine after : Machine σ} (hplain : machine.AllPlain)
    (htidy : machine.Tidy) (hsteps : Steps setting machine after) : after.AllPlain := by
  induction hsteps with
  | refl => exact hplain
  | tail hbefore hstep ih => exact ih.step (htidy.steps hbefore) hstep

theorem AllPlain.runs {script : Script α} {machine after : Machine σ} {result : α}
    (hplain : machine.AllPlain) (htidy : machine.Tidy)
    (hruns : Runs setting script machine result after)
    (hstarts : script.Starts fun job => job.depth = 0 ∧ job.action.isPlain = true) :
    after.AllPlain := by
  induction hruns with
  | done => exact hplain
  | perform _ ih => exact ih hplain (htidy.withWorld _) (hstarts.of_leads (.perform .refl)).2
  | observe _ ih => exact ih hplain htidy (hstarts.of_leads (.observe .refl)).2
  | pause hsteps _ _ ih =>
      exact ih (hplain.steps htidy hsteps) (htidy.steps hsteps) (hstarts.of_leads (.pause .refl)).2
  | @request message next machine awake after result hsteps _ _ ih =>
      have hsent := htidy.withWorld (machine.answer setting message).2.world
      have hsentPlain : (machine.answer setting message).2.AllPlain := hplain
      exact ih (hsentPlain.steps hsent hsteps) (hsent.steps hsteps)
        (hstarts.of_leads (.request .refl)).2
  | @start job next machine after result _ ih =>
      have hleads : Script.Leads (.start job next) [.started job machine.tasks.length]
          (next machine.tasks.length) := .start .refl
      obtain ⟨hjobs, hnext⟩ := hstarts.of_leads hleads
      refine ih ?_ (htidy.start job) hnext
      intro task htask
      rcases List.mem_append.1 htask with htask | htask
      · exact hplain task htask
      · rw [List.mem_singleton.1 htask]
        exact hjobs job (.head _)

end Machine

/-- Waits for tasks one after the other, under any schedule. -/
inductive Joins (setting : Setting σ) : List TaskId → Machine σ → Machine σ → Prop where
  | nil {machine : Machine σ} : Joins setting [] machine machine
  | cons {task : TaskId} {rest : List TaskId} {machine middle after : Machine σ} :
      Machine.Steps setting machine middle → middle.isOver task = true →
      Joins setting rest middle after → Joins setting (task :: rest) machine after

theorem Joins.spec {setting : Setting σ} {tasks : List TaskId} {machine after : Machine σ}
    (hjoins : Joins setting tasks machine after) :
    Machine.Steps setting machine after ∧ (∀ i ∈ tasks, after.isOver i = true) ∧
      (tasks = [] → after = machine) := by
  induction hjoins with
  | nil => exact ⟨.refl, by simp, fun _ => rfl⟩
  | cons hsteps hover _ ih =>
      obtain ⟨hlater, hrest, -⟩ := ih
      refine ⟨hsteps.trans hlater, fun i hi => ?_, fun hnil => absurd hnil (by simp)⟩
      rcases List.mem_cons.1 hi with rfl | hi
      · exact (Machine.Steps.keeps hlater).isOver hover
      · exact hrest i hi

/-- Tasks that are over are joined at once. -/
theorem joins_self {setting : Setting σ} {tasks : List TaskId} {machine : Machine σ}
    (hover : ∀ i ∈ tasks, machine.isOver i = true) : Joins setting tasks machine machine := by
  induction tasks with
  | nil => exact .nil
  | cons task rest ih =>
      exact .cons .refl (hover task (.head rest)) (ih fun i hi => hover i (.tail task hi))

theorem joins_iff {setting : Setting σ} {tasks : List TaskId} {machine after : Machine σ} :
    Joins setting tasks machine after ↔
      Machine.Steps setting machine after ∧ (∀ i ∈ tasks, after.isOver i = true) ∧
        (tasks = [] → after = machine) := by
  refine ⟨Joins.spec, ?_⟩
  rintro ⟨hsteps, hover, hnil⟩
  cases tasks with
  | nil =>
      rw [hnil rfl]
      exact .nil
  | cons task rest =>
      exact .cons hsteps (hover task (.head rest)) (joins_self fun i hi => hover i (.tail task hi))

theorem awaitAll_cons_snd (setting : Setting σ) (task : TaskId) (rest : List TaskId)
    (machine : Machine σ) :
    (Background.awaitAll setting (task :: rest) machine).2 =
      (Background.awaitAll setting rest (machine.await setting task)).2 := rfl

/-- The program's own way to wait for its tasks. -/
theorem joins_awaitAll {setting : Setting σ} {tasks : List TaskId} {machine : Machine σ}
    (htidy : machine.Tidy) (hroots : ∀ i ∈ tasks, machine.IsRoot i) :
    Joins setting tasks machine (Background.awaitAll setting tasks machine).2 := by
  induction tasks generalizing machine with
  | nil => exact .nil
  | cons task rest ih =>
      obtain ⟨own, hown, -⟩ := hroots task (.head rest)
      obtain ⟨hsteps, hover⟩ := htidy.await (List.getElem?_eq_some_iff.1 hown).1
      rw [awaitAll_cons_snd]
      refine .cons hsteps hover (ih (htidy.steps hsteps) fun i hi => ?_)
      exact hsteps.keeps.isRoot (hroots i (.tail task hi))

/-- A task that came to its end. -/
def Task.IsFinished (task : Task) : Prop :=
  ∃ outcome, task.state = .finished outcome

namespace Machine

variable {σ : Type}

theorem Tidy.isFinished_iff {machine : Machine σ} (htidy : machine.Tidy) {task : Task}
    (htask : task ∈ machine.tasks) : task.IsFinished ↔ task.state.isOver = true := by
  have hne := htidy.unaborted task htask
  cases hstate : task.state with
  | finished outcome => simp [Task.IsFinished, hstate, TaskState.isOver]
  | aborted => exact absurd hstate hne
  | _ => simp [Task.IsFinished, hstate, TaskState.isOver]

end Machine

/-- Where no branch holds a detached action, all tasks stand at the top. -/
theorem Hosted.allPlain {session : Session} {setting : Setting σ} {machine : Machine σ}
    {background : Background} (hhosted : Hosted session setting machine background)
    (hplain : session.IsPlain) : machine.AllPlain := by
  have hfrom (job : Job) (hjob : job.From session.actions) :
      job.depth = 0 ∧ job.action.isPlain = true := by
    rcases hjob with ⟨hdepth, hmem⟩ | ⟨action, hmem, hnot⟩
    · exact ⟨hdepth, hplain _ hmem⟩
    · rw [hplain action hmem] at hnot
      cases hnot
  induction hhosted with
  | begin hnone => simp [Machine.AllPlain, hnone]
  | steps hbefore hsteps ih => exact ih.steps hbefore.tracks.1 hsteps
  | withWorld _ _ ih => exact ih
  | load hbefore hruns ih =>
      exact ih.runs hbefore.tracks.1 hruns (session.reports_load.starts.mono hfrom)
  | dispatch hbefore hruns ih =>
      exact ih.runs hbefore.tracks.1 hruns ((session.reports_dispatch _).starts.mono hfrom)
  | dispatchValue hbefore hruns ih =>
      exact ih.runs hbefore.tracks.1 hruns ((session.reports_dispatchValue _).starts.mono hfrom)

/-- All tasks that were collected are over exactly when all tasks at the top have
come to their ends. -/
theorem Hosted.forall_isOver_iff {session : Session} {setting : Setting σ}
    {machine after : Machine σ} {background : Background}
    (hhosted : Hosted session setting machine background)
    (hsteps : Machine.Steps setting machine after) :
    (∀ i ∈ background.tasks, after.isOver i = true) ↔
      ∀ task ∈ after.tasks, task.job.depth = 0 → task.IsFinished := by
  obtain ⟨htidy, htracks⟩ := (hhosted.steps hsteps).tracks
  constructor
  · intro hover task htask hdepth
    obtain ⟨i, hi⟩ := List.mem_iff_getElem?.1 htask
    have hoverTask : after.isOver i = true := by
      rcases htracks.isOver_or_mem i ⟨task, hi, hdepth⟩ with h | hmem
      · exact h
      · exact hover i hmem
    obtain ⟨own, hown, hstate⟩ := Machine.isOver_iff.1 hoverTask
    obtain rfl := Option.some.inj (hi.symm.trans hown)
    exact (htidy.isFinished_iff htask).2 hstate
  · intro hfinished i hmem
    obtain ⟨task, htask, hdepth⟩ := htracks.isRoot i hmem
    have hmemTask := List.mem_of_getElem? htask
    exact Machine.isOver_iff.2
      ⟨task, htask, (htidy.isFinished_iff hmemTask).1 (hfinished task hmemTask hdepth)⟩

/-- A program that joins its background actions has waited for the tasks at the
top of action lists, and for no others: under every schedule it goes on as soon
as those have come to their ends, wherever the tasks inside of branches stand.
Where no branch holds a detached action, it has waited for all of them. -/
theorem join_waits_for_roots {session : Session} {setting : Setting σ} {machine : Machine σ}
    {background : Background} (hhosted : Hosted session setting machine background) :
    (∀ after, Joins setting background.tasks machine after ↔
      Machine.Steps setting machine after ∧
        (∀ task ∈ after.tasks, task.job.depth = 0 → task.IsFinished) ∧
        (background.tasks = [] → after = machine)) ∧
      (session.IsPlain → ∀ after, Joins setting background.tasks machine after →
        ∀ task ∈ after.tasks, task.IsFinished) ∧
      Joins setting background.tasks machine (background.joinAll setting machine).2.2 := by
  refine ⟨fun after => ?_, fun hplain after hjoins task htask => ?_, ?_⟩
  · rw [joins_iff]
    constructor
    · rintro ⟨hsteps, hover, hnil⟩
      exact ⟨hsteps, (hhosted.forall_isOver_iff hsteps).1 hover, hnil⟩
    · rintro ⟨hsteps, hfinished, hnil⟩
      exact ⟨hsteps, (hhosted.forall_isOver_iff hsteps).2 hfinished, hnil⟩
  · obtain ⟨hsteps, hover, -⟩ := joins_iff.1 hjoins
    have hroots := (hhosted.allPlain hplain).steps hhosted.tracks.1 hsteps
    exact (hhosted.forall_isOver_iff hsteps).1 hover task htask (hroots task htask).1
  · exact joins_awaitAll hhosted.tracks.1 hhosted.tracks.2.isRoot

/-- A page with a button that starts a task behind the answer to a request. -/
def Session.withNestedTask : Session :=
  let nested : Action := { kind := .runActions none, delay := some 50, detached := true }
  let action : Action := { kind := .callApi default .get none none, onSuccess := some [nested] }
  { page := default
    engine := {}
    handlers := .ofList [("button", {
      component := "button"
      bindings := [{ trigger := .onClick, actions := [action] }] })] }

/-- Surroundings that answer every request at once. -/
def Setting.answering : Setting Unit where
  engine := {}
  host := {
    answer := fun _ _ _ => ({ reply := .ok default }, ())
    call := fun _ _ => ()
    notify := fun _ _ => () }

/-- The page after a click on the button. -/
def Machine.clicked : Except DispatchError (Option Run) × Machine Unit :=
  Machine.run .answering
    (Session.withNestedTask.dispatch { component := "button", trigger := .onClick })
    { world := default }

/-- A task that was started inside of a branch still waits for its delay when all
that was collected is joined. -/
theorem join_waits_for_roots_of_nested :
    let after := Machine.clicked.2.pass .answering 10
    Joins .answering [] after after ∧ after.tasks.map (·.state.deadline?) = [some 50] := by
  intro after
  have hmachine : Machine.Tidy { world := (default : World Unit) } :=
    Machine.tidy_of_tasks_eq_nil rfl
  have hruns : Machine.Runs .answering _ _ Machine.clicked.1 Machine.clicked.2 := hmachine.runs _
  have hclicked : Hosted .withNestedTask .answering Machine.clicked.2 {} :=
    Hosted.dispatch (.begin rfl) hruns
  have hafter : Hosted .withNestedTask .answering after {} :=
    hclicked.steps (hclicked.tracks.1.pass 10).1
  have hdepths : (Machine.clicked.2.pass .answering 10).tasks.map (·.job.depth) = [1] := rfl
  have hroots : ∀ task ∈ after.tasks, task.job.depth = 0 → task.IsFinished := by
    intro task htask hdepth
    have hone : task.job.depth ∈ [1] := hdepths ▸ List.mem_map_of_mem htask
    rw [hdepth] at hone
    cases List.mem_singleton.1 hone
  exact ⟨((join_waits_for_roots hafter).1 after).2 ⟨.refl, hroots, fun _ => rfl⟩, rfl⟩

end LivePage
