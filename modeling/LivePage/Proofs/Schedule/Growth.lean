import Mathlib.Data.List.Pairwise
import LivePage.Proofs.Schedule.Detached

/-!
# Growth

What is left of the past on a page.  While nobody aborts tasks, those there are only move on
and new ones come behind them; what was done stays in the history, and a task that is over does
nothing more.  Each task was started once, so no two runs report the same one.
-/

namespace LivePage

/-- Where every choice from a list is different, it is clear what was chosen from. -/
theorem eq_of_nodup_filterMap {α β : Type} {f : α → Option β} {items : List α}
    (hnodup : (items.filterMap f).Nodup) {a b : α} {image : β} (ha : a ∈ items) (hb : b ∈ items)
    (hfa : f a = some image) (hfb : f b = some image) : a = b := by
  have : Std.Symm fun a b => ∀ x, f a = some x → ∀ y, f b = some y → x ≠ y :=
    ⟨fun _ _ hdiffers x hx y hy => (hdiffers y hy x hx).symm⟩
  by_contra hne
  exact (List.pairwise_filterMap.1 hnodup).forall ha hb hne image hfa image hfb rfl

namespace Machine

variable {σ : Type} {setting : Setting σ} {machine after : Machine σ}

/-- A task has come to its end by itself. -/
def IsFinished (machine : Machine σ) (task : TaskId) : Prop :=
  ∃ outcome, (machine.tasks[task]?).map Task.state = some (.finished outcome)

def IsAborted (machine : Machine σ) (task : TaskId) : Prop :=
  (machine.tasks[task]?).map Task.state = some .aborted

theorem isFinished_or_isAborted_of_isOver {task : TaskId} (hover : machine.isOver task = true) :
    machine.IsFinished task ∨ machine.IsAborted task := by
  obtain ⟨own, hown, hstate⟩ := isOver_iff.1 hover
  cases hof : own.state with
  | finished outcome => exact .inl ⟨outcome, by rw [hown, Option.map_some, hof]⟩
  | aborted => exact .inr (by rw [IsAborted, hown, Option.map_some, hof])
  | ready | waiting => rw [hof] at hstate; cases hstate

theorem IsAborted.isOver {task : TaskId} (haborted : machine.IsAborted task) :
    machine.isOver task = true := by
  rw [Machine.isOver, outcome?, haborted]
  rfl

/-- The outcome of a task that was not aborted is the one that it came to. -/
theorem eq_finished_of_outcome? {task : TaskId} {outcome : Outcome}
    (houtcome : machine.outcome? task = some outcome) (hnot : ¬ machine.IsAborted task) :
    (machine.tasks[task]?).map Task.state = some (.finished outcome) := by
  rw [outcome?] at houtcome
  split at houtcome
  · next hstate => rw [hstate, Option.some.inj houtcome]
  · next hstate => exact absurd hstate hnot
  · cases houtcome

/-- How a task ended does not change any more. -/
theorem Keeps.outcome?_eq {task : TaskId} {outcome : Outcome} (hkeeps : machine.Keeps after)
    (houtcome : machine.outcome? task = some outcome) : after.outcome? task = some outcome := by
  obtain ⟨own, hown, hstate⟩ := isOver_iff.1 (Option.isSome_of_mem houtcome)
  obtain ⟨other, hother, -, hsame⟩ := hkeeps task own hown
  rw [outcome?, hown, Option.map_some] at houtcome
  rw [outcome?, hother, Option.map_some, hsame hstate]
  exact houtcome

theorem Keeps.isAborted {task : TaskId} (hkeeps : machine.Keeps after)
    (haborted : machine.IsAborted task) : after.IsAborted task := by
  obtain ⟨own, hown, hstate⟩ := Option.map_eq_some_iff.1 haborted
  obtain ⟨other, hother, -, hsame⟩ := hkeeps task own hown
  rw [IsAborted, hother, Option.map_some, hsame (by rw [hstate]; rfl), hstate]

/-- While tasks only move on, none becomes aborted. -/
theorem Grows.isAborted {task : TaskId} (hgrows : Grows setting machine after)
    (haborted : after.IsAborted task) : machine.IsAborted task := by
  obtain ⟨moved, jobs, htasks, hmoved⟩ := hgrows
  rw [IsAborted, htasks, List.getElem?_append] at haborted
  split at haborted
  · next hold =>
      have hlength : task < machine.tasks.length := hmoved.length_eq ▸ hold
      have hown := List.getElem?_eq_getElem hlength
      obtain ⟨other, hother, -, hbecomes⟩ := getElem?_of_forall₂ hmoved hown
      rw [hother, Option.map_some] at haborted
      by_contra hnot
      rw [IsAborted, hown, Option.map_some] at hnot
      exact hbecomes.ne_aborted (fun heq => hnot (by rw [heq])) (Option.some.inj haborted)
  · obtain ⟨fresh, hfresh, hstate⟩ := Option.map_eq_some_iff.1 haborted
    obtain ⟨job, -, rfl⟩ := List.mem_map.1 (List.mem_of_getElem? hfresh)
    cases hstate

theorem grows_of_tasks_eq (htasks : after.tasks = machine.tasks) :
    Grows setting machine after :=
  (evolves_of_tasks_eq htasks).grows

/-- A script in its turn changes no task, and starts some. -/
theorem grows_advance (script : Script α) :
    Grows setting machine (advance setting script machine).2 :=
  ⟨machine.tasks, _, (extends_advance setting script machine).tasks,
    List.forall₂_same.2 fun task _ => .refl task⟩

/-- A script in its turn leaves the machine in order. -/
theorem Orderly.advance (horderly : machine.Orderly) (script : Script α) :
    (advance setting script machine).2.Orderly := by
  induction script generalizing machine with
  | done result => exact horderly
  | perform effect next ih => exact ih (horderly.withWorld _)
  | observe next ih => exact ih _ horderly
  | pause ms next ih =>
      rw [Machine.advance]
      split
      · exact ih horderly
      · exact horderly
  | request message next ih =>
      have hsent := horderly.withWorld (machine.answer setting message).2.world
      rw [advance_request]
      split
      · exact ih _ hsent
      · exact hsent
  | start job next ih => exact ih _ (horderly.start job)

theorem keeps_of_calms (hcalms : List.Forall₂ Task.Calms machine.tasks after.tasks) :
    machine.Keeps after := by
  intro i task htask
  obtain ⟨other, hother, hjob, hcalm⟩ := getElem?_of_forall₂ hcalms htask
  exact ⟨other, hother, hjob, hcalm.eq_of_isOver⟩

/-- Aborting a task leaves the machine in order. -/
theorem Orderly.abort (horderly : machine.Orderly) (task : TaskId) :
    (machine.abort task).Orderly := by
  rw [Machine.abort]
  split
  · exact horderly
  · refine ⟨?_, fun other script hscript => ?_, ?_⟩
    · exact forall_mem_modify horderly.fueled fun own _ => trivial
    · apply horderly.queued other script
      rw [setState] at hscript
      by_cases heq : task = other
      · rw [heq, List.getElem?_modify_eq] at hscript
        cases hown : machine.tasks[other]? <;> rw [hown] at hscript <;> cases hscript
      · rwa [List.getElem?_modify_ne _ _ heq] at hscript
    · refine forall_mem_modify horderly.ahead fun own _ deadline hdeadline => ?_
      cases hdeadline

theorem isAborted_abort {task : TaskId} (hthere : task < machine.tasks.length)
    (hopen : machine.isOver task = false) : (machine.abort task).IsAborted task := by
  rw [Machine.abort, if_neg (by simp [hopen]), IsAborted, setState, List.getElem?_modify_eq,
    List.getElem?_eq_getElem hthere]
  rfl

/-- Other tasks stay as they are when a task is aborted. -/
theorem getElem?_abort_ne {task other : TaskId} (hne : task ≠ other) :
    (machine.abort task).tasks[other]? = machine.tasks[other]? := by
  rw [Machine.abort]
  split
  · rfl
  · rw [setState, List.getElem?_modify_ne _ _ hne]

theorem isAborted_of_abort {task other : TaskId} (haborted : (machine.abort task).IsAborted other) :
    machine.IsAborted other ∨ other = task := by
  by_cases heq : task = other
  · exact .inr heq.symm
  · rw [IsAborted, getElem?_abort_ne heq] at haborted
    exact .inl haborted

theorem isOver_abort_ne {task other : TaskId} (hne : task ≠ other) :
    (machine.abort task).isOver other = machine.isOver other := by
  rw [isOver, outcome?, getElem?_abort_ne hne]
  rfl

end Machine

theorem Move.AbortsOnly.of_nil {move : Move} (hmove : move.AbortsOnly []) (tasks : List TaskId) :
    move.AbortsOnly tasks := by
  cases move with
  | abort task => exact absurd hmove List.not_mem_nil
  | _ => trivial

namespace Crowd

variable {σ : Type} {setting : Setting σ} {world : World σ} {crowd : Crowd σ}

/-- Unless it aborts a task, a move lets the tasks grow. -/
theorem grows_step (setting : Setting σ) (crowd : Crowd σ) {move : Move}
    (hmove : move.AbortsOnly []) :
    Machine.Grows setting crowd.machine (crowd.step setting move).machine := by
  cases move with
  | enter errand => exact Machine.grows_advance _
  | goOn i =>
      rw [step]
      split
      · split
        · exact Machine.grows_advance _
        · exact Machine.grows_of_tasks_eq rfl
      · exact Machine.grows_of_tasks_eq rfl
  | turn task =>
      rw [step]
      split
      · exact (Machine.evolves_runTask (crowd.machine.pop task) task).grows
      · exact Machine.grows_of_tasks_eq rfl
  | tick ms => exact (Machine.evolves_setClock crowd.machine _).grows
  | rest | write => exact Machine.grows_of_tasks_eq rfl
  | abort task => exact absurd hmove List.not_mem_nil

/-- No move changes the job of a task, or how it ended. -/
theorem keeps_step (setting : Setting σ) (crowd : Crowd σ) (move : Move) :
    crowd.machine.Keeps (crowd.step setting move).machine := by
  cases move with
  | abort task => exact Machine.keeps_of_calms (crowd.machine.calms_abort task)
  | enter | goOn | turn | tick | rest | write =>
      refine (grows_step setting crowd ?_).keeps
      trivial

/-- A task becomes aborted only by a move that aborts it. -/
theorem isAborted_of_step {move : Move} {tasks : List TaskId} (hmove : move.AbortsOnly tasks)
    {task : TaskId} (haborted : (crowd.step setting move).machine.IsAborted task) :
    crowd.machine.IsAborted task ∨ task ∈ tasks := by
  cases move with
  | abort other =>
      rcases Machine.isAborted_of_abort haborted with hbefore | rfl
      · exact .inl hbefore
      · exact .inr hmove
  | enter | goOn | turn | tick | rest | write =>
      refine .inl ((grows_step setting crowd ?_).isAborted haborted)
      trivial

/-- Every move leaves the machine in order. -/
theorem orderly_step (horderly : crowd.machine.Orderly) (move : Move) :
    (crowd.step setting move).machine.Orderly := by
  cases move with
  | enter errand => exact horderly.advance _
  | goOn i =>
      rw [step]
      split
      · split
        · exact horderly.advance _
        · exact horderly
      · exact horderly
  | turn task =>
      rw [step]
      split
      · next script hready =>
          have hturn : Machine.Step setting crowd.machine _ :=
            .turn (horderly.queued task script hready)
          exact horderly.step hturn
      · next hnot =>
          refine ⟨horderly.fueled, fun other script hscript => ?_, horderly.ahead⟩
          refine (List.mem_erase_of_ne ?_).2 (horderly.queued other script hscript)
          rintro rfl
          exact hnot script hscript
  | tick ms =>
      have htick : Machine.Step setting crowd.machine _ := .tick (Nat.le_add_right _ ms)
      exact horderly.step htick
  | rest => exact horderly.step .rest
  | write ops => exact horderly.withWorld _
  | abort task => exact horderly.abort task

/-- What was done was done. -/
theorem Change.prefix_history {after : Crowd σ} {move : Move}
    (hchange : Change setting crowd move after) : crowd.history <+: after.history := by
  cases hchange with
  | calm => exact List.prefix_rfl
  | written | entered | wentOn | turned => exact List.prefix_append ..

/-- A task that is over does nothing. -/
theorem actsOf_step_of_isOver {task : TaskId} (hover : crowd.machine.isOver task = true)
    (move : Move) : (crowd.step setting move).actsOf (.task task) = crowd.actsOf (.task task) := by
  generalize hafter : crowd.step setting move = after
  have hchange : Change setting crowd move after := hafter ▸ change_step setting crowd move
  clear hafter
  cases hchange with
  | calm => rfl
  | written ops => exact actsOf_written setting crowd ops _
  | entered errand =>
      rw [step, actsOf_afterTurn, if_neg (by simp), List.append_nil]
  | wentOn => rw [actsOf_afterTurn, if_neg (by simp), List.append_nil]
  | @turned other script hready =>
      rw [actsOf_afterTurn, if_neg, List.append_nil]
      rintro heq
      obtain rfl := Actor.task.inj heq
      obtain ⟨own, hown, hstate⟩ := Option.map_eq_some_iff.1 hready
      obtain ⟨same, hsame, hend⟩ := Machine.isOver_iff.1 hover
      obtain rfl := Option.some.inj (hown.symm.trans hsame)
      rw [hstate] at hend
      cases hend

/-- A run or a task has started a task. -/
def Starter (crowd : Crowd σ) (actor : Actor) (task : TaskId) : Prop :=
  ∃ job, .acted actor (.started job task) ∈ crowd.history

/-- Every task was started once. -/
theorem Recorded.starter_unique (hrecorded : crowd.Recorded setting world) {one other : Actor}
    {task : TaskId} (hone : crowd.Starter one task) (hother : crowd.Starter other task) :
    one = other := by
  obtain ⟨job, hjob⟩ := hone
  obtain ⟨job', hjob'⟩ := hother
  have hnodup := hrecorded.nodup_started
  rw [List.map_filterMap] at hnodup
  exact (Deed.acted.inj (eq_of_nodup_filterMap hnodup hjob hjob' rfl rfl)).1

/-- A task that was started is there. -/
theorem Recorded.lt_length_of_starter (hrecorded : crowd.Recorded setting world) {actor : Actor}
    {task : TaskId} (hstarter : crowd.Starter actor task) : task < crowd.machine.tasks.length := by
  obtain ⟨job, hjob⟩ := hstarter
  have hmem : (job, task) ∈ crowd.history.filterMap Deed.started? :=
    List.mem_filterMap.2 ⟨_, hjob, rfl⟩
  rw [hrecorded.started] at hmem
  have hget := List.mem_zipIdx_iff_getElem?.1 hmem
  simpa using (List.getElem?_eq_some_iff.1 hget).1

/-- A run reports tasks that it has started, each once. -/
theorem Recorded.starter_of_detached (hrecorded : crowd.Recorded setting world) {i : Nat}
    {errand : Errand} {run : Run} (hended : crowd.Ended i errand run) :
    run.detached.Nodup ∧ ∀ task ∈ run.detached, crowd.Starter (.thread i) task := by
  obtain ⟨reached, -, hstarted, hlength⟩ := Engine.exists_reached (hrecorded.walk hended)
  refine ⟨(hrecorded.jobs_of_detached hstarted hlength).1, fun task htask => ?_⟩
  rw [← Engine.tasksAt_of_walk_runList (hrecorded.walk hended)] at htask
  obtain ⟨act, hact, htold⟩ := List.mem_filterMap.1 htask
  have hhistory := mem_history_of_mem_actsOf hact
  cases act with
  | started job other =>
      rw [Act.taskAt?] at htold
      split at htold
      · obtain rfl := Option.some.inj htold
        exact ⟨job, hhistory⟩
      · cases htold
  | _ => cases htold

end Crowd

end LivePage
