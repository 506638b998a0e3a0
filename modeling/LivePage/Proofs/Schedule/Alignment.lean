import LivePage.Proofs.Run.Pruning
import LivePage.Proofs.Schedule.Budget

/-!
# Aligned tasks

The tasks of a machine beside those of a machine that runs pruned trees.  The
second one lacks the tasks that stand too deep, which have nothing to do; the
others are there in the same order, each with the pruned form of its script, so
the name of a task is its place among those that are not too deep.
-/

namespace LivePage

/-- The task has nothing to do but to end. -/
def TaskState.IsIdle : TaskState → Prop
  | ready script => ∃ outcome, script = .done outcome
  | waiting .. => False
  | _ => True

/-- Two tasks that stand alike, the second one with the pruned script. -/
inductive TaskState.Twins (limit : Nat) : TaskState → TaskState → Prop where
  | ready {pairs : List (TaskId × TaskId)} {script other : Script Outcome} :
      Script.Prunes limit (fun _ => Eq) pairs script other →
      Twins limit (.ready script) (.ready other)
  | waiting {pairs : List (TaskId × TaskId)} {deadline : Nat} {script other : Script Outcome} :
      Script.Prunes limit (fun _ => Eq) pairs script other →
      Twins limit (.waiting deadline script) (.waiting deadline other)
  | finished {outcome : Outcome} : Twins limit (.finished outcome) (.finished outcome)

theorem TaskState.Twins.deadline?_eq {limit : Nat} {state twin : TaskState}
    (htwins : state.Twins limit twin) : twin.deadline? = state.deadline? := by
  cases htwins <;> rfl

theorem TaskState.IsIdle.deadline?_eq {state : TaskState} (hidle : state.IsIdle) :
    state.deadline? = none := by
  cases state with
  | waiting => exact hidle.elim
  | _ => rfl

namespace Machine

/-- Tasks beside the tasks of pruned jobs; those that stand too deep are missing
there. -/
inductive Aligned (limit : Nat) : List Task → List Task → Prop where
  | nil : Aligned limit [] []
  | twin {task other : Task} {rest others : List Task} :
      task.job.depth ≤ limit → task.state.Twins limit other.state →
      Aligned limit rest others → Aligned limit (task :: rest) (other :: others)
  | tooDeep {task : Task} {rest others : List Task} :
      limit < task.job.depth → task.state.IsIdle →
      Aligned limit rest others → Aligned limit (task :: rest) others

/-- The nesting depths of some tasks. -/
def depths (tasks : List Task) : List Nat :=
  tasks.map (·.job.depth)

/-- Whether there is a task that is not too deep. -/
def reaches (limit : Nat) (depths : List Nat) (i : TaskId) : Bool :=
  (depths[i]?).any (· ≤ limit)

/-- How many tasks before one are not too deep. -/
def place (limit : Nat) : List Nat → TaskId → TaskId
  | [], _ => 0
  | _ :: _, 0 => 0
  | depth :: rest, i + 1 => place limit rest i + if depth ≤ limit then 1 else 0

theorem reaches_append {limit : Nat} {depths more : List Nat} {i : TaskId}
    (hlength : i < depths.length) : reaches limit (depths ++ more) i = reaches limit depths i := by
  rw [reaches, reaches, List.getElem?_append_left hlength]

theorem place_append {limit : Nat} {depths more : List Nat} {i : TaskId}
    (hlength : i < depths.length) : place limit (depths ++ more) i = place limit depths i := by
  induction depths generalizing i with
  | nil => exact absurd hlength (Nat.not_lt_zero i)
  | cons depth rest ih =>
      cases i with
      | zero => rfl
      | succ i => rw [List.cons_append, place, place, ih (Nat.lt_of_succ_lt_succ hlength)]

variable {limit : Nat} {tasks others : List Task}

theorem Aligned.append {more : List Task} {moreOthers : List Task}
    (haligned : Aligned limit tasks others) (hmore : Aligned limit more moreOthers) :
    Aligned limit (tasks ++ more) (others ++ moreOthers) := by
  induction haligned with
  | nil => exact hmore
  | twin hdepth htwins _ ih => exact .twin hdepth htwins ih
  | tooDeep hdepth hidle _ ih => exact .tooDeep hdepth hidle ih

/-- The place behind all tasks. -/
theorem Aligned.place_length (haligned : Aligned limit tasks others) (more : List Nat) :
    place limit (depths tasks ++ more) tasks.length = others.length := by
  induction haligned with
  | nil => cases more <;> rfl
  | twin hdepth _ _ ih =>
      rw [depths, List.map_cons, List.length_cons, List.cons_append, place, if_pos hdepth]
      exact congrArg (· + 1) ih
  | tooDeep hdepth _ _ ih =>
      rw [depths, List.map_cons, List.length_cons, List.cons_append, place,
        if_neg (Nat.not_le.2 hdepth)]
      exact ih

/-- A task that is not too deep stands at its place. -/
theorem Aligned.exists_twin (haligned : Aligned limit tasks others) {i : TaskId} {task : Task}
    (htask : tasks[i]? = some task) (hdepth : task.job.depth ≤ limit) :
    ∃ other, others[place limit (depths tasks) i]? = some other ∧
      task.state.Twins limit other.state := by
  induction haligned generalizing i with
  | nil => simp at htask
  | @twin own other rest others hown htwins _ ih =>
      cases i with
      | zero =>
          obtain rfl := Option.some.inj htask
          exact ⟨other, rfl, htwins⟩
      | succ i =>
          obtain ⟨found, hfound, hstate⟩ := ih htask
          refine ⟨found, ?_, hstate⟩
          rw [depths, List.map_cons, place, if_pos hown]
          exact hfound
  | @tooDeep own rest others hown hidle _ ih =>
      cases i with
      | zero =>
          obtain rfl := Option.some.inj htask
          exact absurd hdepth (Nat.not_le.2 hown)
      | succ i =>
          rw [depths, List.map_cons, place, if_neg (Nat.not_le.2 hown)]
          exact ih htask

theorem Aligned.isIdle (haligned : Aligned limit tasks others) {i : TaskId} {task : Task}
    (htask : tasks[i]? = some task) (hdepth : limit < task.job.depth) : task.state.IsIdle := by
  induction haligned generalizing i with
  | nil => simp at htask
  | twin hown _ _ ih =>
      cases i with
      | zero =>
          obtain rfl := Option.some.inj htask
          exact absurd hown (Nat.not_le.2 hdepth)
      | succ i => exact ih htask
  | tooDeep _ hidle _ ih =>
      cases i with
      | zero =>
          obtain rfl := Option.some.inj htask
          exact hidle
      | succ i => exact ih htask

/-- A task and its twin change alike. -/
theorem Aligned.modify_twin (haligned : Aligned limit tasks others) {i : TaskId} {task : Task}
    (htask : tasks[i]? = some task) (hdepth : task.job.depth ≤ limit) {state twin : TaskState}
    (hstate : state.Twins limit twin) :
    Aligned limit (tasks.modify i fun task => { task with state })
      (others.modify (place limit (depths tasks) i) fun task => { task with state := twin }) := by
  induction haligned generalizing i with
  | nil => simp at htask
  | @twin own other rest others hown htwins haligned ih =>
      cases i with
      | zero => exact .twin hown hstate haligned
      | succ i =>
          rw [depths, List.map_cons, place, if_pos hown]
          exact .twin hown htwins (ih htask)
  | @tooDeep own rest others hown hidle _ ih =>
      cases i with
      | zero =>
          obtain rfl := Option.some.inj htask
          exact absurd hdepth (Nat.not_le.2 hown)
      | succ i =>
          rw [depths, List.map_cons, place, if_neg (Nat.not_le.2 hown)]
          exact .tooDeep hown hidle (ih htask)

/-- A task that stands too deep changes unseen. -/
theorem Aligned.modify_tooDeep (haligned : Aligned limit tasks others) {i : TaskId} {task : Task}
    (htask : tasks[i]? = some task) (hdepth : limit < task.job.depth) {state : TaskState}
    (hidle : state.IsIdle) :
    Aligned limit (tasks.modify i fun task => { task with state }) others := by
  induction haligned generalizing i with
  | nil => simp at htask
  | twin hown htwins haligned ih =>
      cases i with
      | zero =>
          obtain rfl := Option.some.inj htask
          exact absurd hown (Nat.not_le.2 hdepth)
      | succ i => exact .twin hown htwins (ih htask)
  | tooDeep hown hstate haligned ih =>
      cases i with
      | zero => exact .tooDeep hown hidle haligned
      | succ i => exact .tooDeep hown hstate (ih htask)

/-- The machines wait for the same moments. -/
theorem Aligned.filterMap_deadline? (haligned : Aligned limit tasks others) :
    others.filterMap (·.state.deadline?) = tasks.filterMap (·.state.deadline?) := by
  induction haligned with
  | nil => rfl
  | twin _ htwins _ ih => rw [List.filterMap_cons, List.filterMap_cons, htwins.deadline?_eq, ih]
  | tooDeep _ hidle _ ih =>
      rw [List.filterMap_cons, hidle.deadline?_eq]
      exact ih

theorem wakeTask_of_isIdle (clock : Nat) {task : Task} (hidle : task.state.IsIdle) :
    wakeTask clock task = task := by
  rw [wakeTask]
  split
  · next hwaiting =>
      rw [hwaiting] at hidle
      exact hidle.elim
  · rfl

theorem twins_wakeTask (clock : Nat) {task other : Task}
    (htwins : task.state.Twins limit other.state) :
    (wakeTask clock task).state.Twins limit (wakeTask clock other).state := by
  rcases task with ⟨job, state⟩
  rcases other with ⟨twin, otherState⟩
  cases htwins with
  | @waiting pairs deadline script other hprunes =>
      by_cases hdue : deadline ≤ clock
      · simp only [wakeTask, hdue, if_true]
        exact .ready hprunes
      · simp only [wakeTask, hdue, if_false]
        exact .waiting hprunes
  | ready hprunes => exact .ready hprunes
  | finished => exact .finished

/-- A task and its twin wake up together. -/
theorem Aligned.map_wakeTask (haligned : Aligned limit tasks others) (clock : Nat) :
    Aligned limit (tasks.map (wakeTask clock)) (others.map (wakeTask clock)) := by
  induction haligned with
  | nil => exact .nil
  | twin hdepth htwins _ ih =>
      refine .twin ?_ (twins_wakeTask clock htwins) ih
      rw [job_wakeTask]
      exact hdepth
  | tooDeep hdepth hidle _ ih =>
      rw [List.map_cons, wakeTask_of_isIdle clock hidle]
      exact .tooDeep hdepth hidle ih

theorem depths_map_wakeTask (clock : Nat) (tasks : List Task) :
    depths (tasks.map (wakeTask clock)) = depths tasks := by
  rw [depths, List.map_map]
  exact List.map_congr_left fun task _ => congrArg Job.depth (job_wakeTask clock task)

theorem dueTasks_cons (clock : Nat) (task : Task) (rest : List Task) :
    dueTasks clock (task :: rest) =
      (if task.state.deadline?.any (· ≤ clock) then [0] else []) ++
        (dueTasks clock rest).map (· + 1) := by
  rw [dueTasks, List.length_cons, List.range_succ_eq_map, List.filter_cons, List.filter_map]
  split
  · next hdue =>
      rw [if_pos (by simpa using hdue)]
      rfl
  · next hdue =>
      rw [if_neg (by simpa using hdue)]
      rfl

/-- The places of those tasks of a queue that are not too deep. -/
def seen (limit : Nat) (depths : List Nat) (queue : List TaskId) : List TaskId :=
  (queue.filter (reaches limit depths)).map (place limit depths)

theorem seen_append (limit : Nat) (depths : List Nat) (first second : List TaskId) :
    seen limit depths (first ++ second) = seen limit depths first ++ seen limit depths second := by
  rw [seen, List.filter_append, List.map_append]
  rfl

/-- New tasks do not move those that were there. -/
theorem seen_depths_append {limit : Nat} {depths : List Nat} (more : List Nat)
    {queue : List TaskId} (hknown : ∀ i ∈ queue, i < depths.length) :
    seen limit (depths ++ more) queue = seen limit depths queue := by
  rw [seen, List.filter_congr fun i hi => reaches_append (hknown i hi)]
  exact List.map_congr_left fun i hi => place_append (hknown i (List.mem_of_mem_filter hi))

theorem seen_cons_map_succ (limit depth : Nat) (rest : List Nat) (queue : List TaskId) :
    seen limit (depth :: rest) (queue.map (· + 1)) =
      (seen limit rest queue).map (· + if depth ≤ limit then 1 else 0) := by
  rw [seen, List.filter_map, List.map_map, seen, List.map_map]
  rfl

/-- The tasks that wake up at a moment are the same ones. -/
theorem Aligned.dueTasks_eq (haligned : Aligned limit tasks others) (clock : Nat) :
    dueTasks clock others = seen limit (depths tasks) (dueTasks clock tasks) := by
  induction haligned with
  | nil => rfl
  | @twin own other rest others hdepth htwins _ ih =>
      have hown (due : Bool) : seen limit (own.job.depth :: depths rest) (if due then [0] else []) =
          if due then [0] else [] := by
        cases due <;> simp [seen, reaches, place, hdepth]
      rw [dueTasks_cons, dueTasks_cons, seen_append, depths, List.map_cons, ← depths, hown,
        seen_cons_map_succ, ← ih, htwins.deadline?_eq, if_pos hdepth]
  | @tooDeep own rest others hdepth hidle _ ih =>
      rw [dueTasks_cons, hidle.deadline?_eq, depths, List.map_cons, ← depths]
      simp only [Option.any_none, Bool.false_eq_true, if_false, List.nil_append]
      rw [seen_cons_map_succ, if_neg (Nat.not_le.2 hdepth), ← ih]
      simp

end Machine

end LivePage
