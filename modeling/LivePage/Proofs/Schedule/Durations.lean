import Mathlib
import LivePage.Proofs.Run.Account
import LivePage.Proofs.Run.Course
import LivePage.Proofs.Schedule.Fifo

/-!
# How long runs take

Time passes in a run over a list of actions only while it waits: for the delays of the
actions that it performs and for the answers to their requests.  So the time that it takes is
the sum of these, whatever else is scheduled.  An action that is skipped, stands too deep or
is not come to takes no time, and neither does a detached one, which is only started.
-/

namespace LivePage

namespace Act

/-- How long an act waits, but for an answer. -/
def wait : Act → Nat
  | paused ms => ms
  | _ => 0

/-- How long some acts wait, but for answers. -/
def waits (acts : List Act) : Nat :=
  (acts.map wait).sum

/-- The replies that some acts got, in order. -/
def replies (acts : List Act) : List HttpReply :=
  (acts.filterMap request?).map Prod.snd

theorem waits_cons (act : Act) (acts : List Act) : waits (act :: acts) = act.wait + waits acts :=
  rfl

theorem waits_cons_of_wait_eq_zero {act : Act} (hzero : act.wait = 0) (acts : List Act) :
    waits (act :: acts) = waits acts := by
  rw [waits_cons, hzero, Nat.zero_add]

theorem waits_append (first second : List Act) :
    waits (first ++ second) = waits first + waits second := by
  rw [waits, List.map_append, List.sum_append, ← waits, ← waits]

theorem replies_append (first second : List Act) :
    replies (first ++ second) = replies first ++ replies second := by
  rw [replies, List.filterMap_append, List.map_append, ← replies, ← replies]

/-- Acts without those that start a job. -/
def settled (acts : List Act) : List Act :=
  acts.filter fun act => act.job?.isNone

theorem settled_append (first second : List Act) :
    settled (first ++ second) = settled first ++ settled second :=
  List.filter_append ..

/-- Starting a job takes no time and gets no reply. -/
theorem waits_settled (acts : List Act) : waits (settled acts) = waits acts := by
  induction acts with
  | nil => rfl
  | cons act rest ih =>
      cases act with
      | started job task => exact ih.trans (Nat.zero_add _).symm
      | _ => exact congrArg (_ + ·) ih

theorem replies_settled (acts : List Act) : replies (settled acts) = replies acts := by
  induction acts with
  | nil => rfl
  | cons act rest ih =>
      cases act with
      | asked message reply => exact congrArg (reply :: ·) ih
      | _ => exact ih

end Act

namespace Machine

variable {σ : Type} {setting : Setting σ}

/-- What a script does in the foreground, in order. -/
def conduct (setting : Setting σ) : Script α → Machine σ → List Act
  | .done _, _ => []
  | .perform effect next, machine =>
      .performed effect :: conduct setting next (machine.perform setting effect)
  | .observe next, machine =>
      .observed machine.world.page :: conduct setting (next machine.world.page) machine
  | .pause ms next, machine =>
      .paused ms :: conduct setting next (if ms = 0 then machine else machine.pass setting ms)
  | .request message next, machine =>
      let (answer, machine) := machine.answer setting message
      .asked message answer.reply :: conduct setting (next answer.reply)
        (if answer.delay = 0 then machine else machine.pass setting answer.delay)
  | .start job next, machine =>
      let (task, machine) := machine.start setting job
      .started job task :: conduct setting (next task) machine

/-- The answers that a script gets in the foreground, in order. -/
def answers (setting : Setting σ) : Script α → Machine σ → List Answer
  | .done _, _ => []
  | .perform effect next, machine => answers setting next (machine.perform setting effect)
  | .observe next, machine => answers setting (next machine.world.page) machine
  | .pause ms next, machine =>
      answers setting next (if ms = 0 then machine else machine.pass setting ms)
  | .request message next, machine =>
      let (answer, machine) := machine.answer setting message
      answer :: answers setting (next answer.reply)
        (if answer.delay = 0 then machine else machine.pass setting answer.delay)
  | .start job next, machine =>
      let (task, machine) := machine.start setting job
      answers setting (next task) machine

/-- In the foreground a script goes along one of its ways. -/
theorem walk_conduct (setting : Setting σ) (script : Script α) (machine : Machine σ) :
    Script.Walk script (conduct setting script machine) (machine.run setting script).1 := by
  induction script generalizing machine with
  | done result => exact .done
  | perform effect next ih => exact .perform (ih _)
  | observe next ih => exact .observe (ih _ machine)
  | pause ms next ih => exact .pause (ih _)
  | request message next ih => exact .request (ih _ _)
  | start job next ih => exact .start (ih _ _)

/-- The replies that a script gets are those of its answers. -/
theorem replies_conduct (setting : Setting σ) (script : Script α) (machine : Machine σ) :
    Act.replies (conduct setting script machine) =
      (answers setting script machine).map Answer.reply := by
  induction script generalizing machine with
  | done result => rfl
  | perform effect next ih => exact ih _
  | observe next ih => exact ih _ machine
  | pause ms next ih => exact ih _
  | request message next ih => exact congrArg (_ :: ·) (ih _ _)
  | start job next ih => exact ih _ _

theorem clock_passWithin (setting : Setting σ) (deadline fuel : Nat) (machine : Machine σ) :
    (passWithin setting deadline fuel machine).clock = deadline := by
  induction fuel generalizing machine with
  | zero => rfl
  | succ fuel ih =>
      rw [passWithin]
      split
      · exact ih _
      · rfl

/-- As much time passes as is asked for, whatever the tasks do. -/
theorem clock_pass (setting : Setting σ) (machine : Machine σ) (ms : Nat) :
    (machine.pass setting ms).clock = machine.clock + ms :=
  clock_passWithin ..

theorem clock_ite_pass (setting : Setting σ) (machine : Machine σ) (ms : Nat) :
    (if ms = 0 then machine else machine.pass setting ms).clock = machine.clock + ms := by
  split
  · next hms => rw [hms, Nat.add_zero]
  · exact clock_pass setting machine ms

/-- In the foreground time passes while a script waits, for a while or for an answer. -/
theorem clock_run (setting : Setting σ) (script : Script α) (machine : Machine σ) :
    (machine.run setting script).2.clock =
      machine.clock + Act.waits (conduct setting script machine) +
        ((answers setting script machine).map Answer.delay).sum := by
  induction script generalizing machine with
  | done result => rfl
  | perform effect next ih =>
      rw [conduct, Act.waits_cons_of_wait_eq_zero rfl]
      exact ih _
  | observe next ih =>
      rw [conduct, Act.waits_cons_of_wait_eq_zero rfl]
      exact ih _ machine
  | pause ms next ih =>
      rw [run, ih, clock_ite_pass, conduct, answers, Act.waits_cons, Act.wait,
        Nat.add_assoc machine.clock]
  | request message next ih =>
      have hwaits : Act.waits (conduct setting (.request message next) machine) = _ :=
        Act.waits_cons_of_wait_eq_zero rfl _
      rw [run_request, ih, clock_ite_pass, hwaits]
      change machine.clock + _ + _ + _ = machine.clock + _ + (_ + _)
      ac_rfl
  | start job next ih =>
      have hwaits : Act.waits (conduct setting (.start job next) machine) = _ :=
        Act.waits_cons_of_wait_eq_zero rfl _
      rw [hwaits]
      exact ih _ _

end Machine

/-- An action that a run performs. -/
structure Performance where
  trial : Trial
  /-- The answer to its request, if it sends one. -/
  answer : Option Answer

namespace Performance

/-- How long it takes: its delay, and until its request is answered. -/
def ms (performance : Performance) : Nat :=
  performance.trial.action.delay.getD 0 + (performance.answer.map Answer.delay).getD 0

/-- The answer is the one that the action got. -/
def IsAnswered (performance : Performance) : Prop :=
  Act.replies performance.trial.told = (performance.answer.map Answer.reply).toList

end Performance

namespace Engine

variable {engine : Engine}

/-- The trials of a course did all that was done in it but to start jobs. -/
theorem Course.settled {depth : Nat} {context : Context} {actions : List Action}
    {acts : List Act} {trials : List Trial}
    (hcourse : engine.Course depth context actions acts trials) :
    Act.settled acts = trials.flatMap Trial.told := by
  have htold {depth : Nat} {context : Context} {action : Action} {told : List Act}
      {outcome : Outcome} (hattempted : engine.Attempted depth context action told outcome) :
      Act.settled told = told :=
    List.filter_eq_self.2 fun act hact => by rw [hattempted.job?_eq_none act hact]; rfl
  induction hcourse with
  | nil => rfl
  | detached _ _ ih => exact ih
  | givenUp _ _ hattempted _ ih =>
      rw [Act.settled_append, htold hattempted, ih, List.flatMap_cons]
  | awaited _ _ hattempted _ _ ihinner ihrest =>
      rw [Act.settled_append, Act.settled_append, htold hattempted, ihinner, ihrest,
        List.flatMap_cons, List.flatMap_append, List.append_assoc]

theorem waits_waited (ms : Nat) : Act.waits (Script.waited ms) = ms := by
  rw [Script.waited]
  split
  · next hms => rw [hms]; rfl
  · rfl

theorem replies_waited (ms : Nat) : Act.replies (Script.waited ms) = [] := by
  rw [Script.waited]
  split <;> rfl

theorem waits_performed (effects : List Effect) : Act.waits (effects.map .performed) = 0 := by
  induction effects with
  | nil => rfl
  | cons effect rest ih => exact (Act.waits_cons_of_wait_eq_zero rfl _).trans ih

theorem replies_performed (effects : List Effect) : Act.replies (effects.map .performed) = [] := by
  induction effects with
  | nil => rfl
  | cons effect rest ih => exact ih

/-- An action that is not executed does nothing.  One that is waits for its delay, and gets a
reply if it sends a request. -/
theorem Attempted.spends {depth : Nat} {context : Context} {action : Action} {told : List Act}
    {outcome : Outcome} (hattempted : engine.Attempted depth context action told outcome) :
    (¬ engine.Executes ⟨depth, context, action, told, outcome⟩ ∧ told = []) ∨
      (engine.Executes ⟨depth, context, action, told, outcome⟩ ∧
        Act.waits told = action.delay.getD 0 ∧
        ∃ reply : Option HttpReply, Act.replies told = reply.toList) := by
  cases hattempted with
  | tooDeep hdeep =>
      exact .inl ⟨fun hexecutes => absurd hexecutes.1 (Nat.not_le.2 hdeep), rfl⟩
  | skipped _ hrefused =>
      exact .inl ⟨fun hexecutes => Bool.false_ne_true (hrefused.symm.trans hexecutes.2), rfl⟩
  | asked reply hdepth hallows _ =>
      refine .inr ⟨⟨hdepth, hallows⟩, ?_, some reply, ?_⟩
      · rw [Act.waits_append, waits_waited]
        rfl
      · rw [Act.replies_append, replies_waited]
        rfl
  | performed hdepth hallows _ =>
      refine .inr ⟨⟨hdepth, hallows⟩, ?_, none, ?_⟩
      · rw [Act.waits_append, waits_waited, waits_performed, Nat.add_zero]
      · rw [Act.replies_append, replies_waited, replies_performed]
        rfl

theorem exists_of_map_eq_toList {α β : Type} {f : α → β} {items : List α} {image : Option β}
    (hmap : items.map f = image.toList) :
    ∃ item : Option α, items = item.toList ∧ item.map f = image := by
  cases image with
  | none => exact ⟨none, List.map_eq_nil_iff.1 hmap, rfl⟩
  | some b =>
      obtain ⟨a, rfl, rfl⟩ := List.map_eq_singleton_iff.1 hmap
      exact ⟨some a, rfl, rfl⟩

/-- The answers that are given to some actions belong to those among them that are executed
and send a request, one to each. -/
theorem exists_performances {trials : List Trial}
    (hattempted : ∀ trial ∈ trials,
      engine.Attempted trial.depth trial.context trial.action trial.told trial.outcome)
    {answers : List Answer}
    (hreplies : Act.replies (trials.flatMap Trial.told) = answers.map Answer.reply) :
    ∃ performed : List Performance,
      performed.map Performance.trial = trials.filter engine.Executes ∧
      (∀ performance ∈ performed, performance.IsAnswered) ∧
      performed.filterMap Performance.answer = answers ∧
      (performed.map Performance.ms).sum =
        Act.waits (trials.flatMap Trial.told) + (answers.map Answer.delay).sum := by
  induction trials generalizing answers with
  | nil =>
      obtain rfl := List.map_eq_nil_iff.1 hreplies.symm
      exact ⟨[], rfl, by simp, rfl, rfl⟩
  | cons trial rest ih =>
      obtain ⟨hfirst, hrest⟩ := List.forall_mem_cons.1 hattempted
      rw [List.flatMap_cons, Act.replies_append] at hreplies
      rw [List.flatMap_cons, Act.waits_append]
      rcases hfirst.spends with ⟨hnot, htold⟩ | ⟨hexecutes, hwaits, reply, hreply⟩
      · rw [htold] at hreplies ⊢
        obtain ⟨performed, htrials, hanswered, hanswers, hsum⟩ := ih hrest hreplies
        refine ⟨performed, ?_, hanswered, hanswers, ?_⟩
        · rw [List.filter_cons_of_neg (by simpa using hnot), htrials]
        · rw [hsum, show Act.waits [] = 0 from rfl, Nat.zero_add]
      · rw [hreply] at hreplies
        obtain ⟨first, later, rfl, hfirst, hlater⟩ := List.map_eq_append_iff.1 hreplies.symm
        obtain ⟨answer, rfl, hanswer⟩ := exists_of_map_eq_toList hfirst
        obtain ⟨performed, htrials, hanswered, hanswers, hsum⟩ := ih hrest hlater.symm
        refine ⟨⟨trial, answer⟩ :: performed, ?_, ?_, ?_, ?_⟩
        · rw [List.filter_cons_of_pos (by simpa using hexecutes), List.map_cons, htrials]
        · refine List.forall_mem_cons.2 ⟨?_, hanswered⟩
          rw [Performance.IsAnswered, hreply, hanswer]
        · rw [List.filterMap_cons, hanswers]
          cases answer <;> rfl
        · rw [List.map_cons, List.sum_cons, hsum, Performance.ms, hwaits, List.map_append,
            List.sum_append]
          have hanswered : ((answer.toList.map Answer.delay).sum : Nat) =
              (answer.map Answer.delay).getD 0 := by
            cases answer <;> rfl
          dsimp only
          rw [hanswered]
          omega

end Engine

namespace Machine

variable {σ : Type} {setting : Setting σ}

/-- Starting actions takes no time. -/
theorem clock_run_of_detached {late : List Action} (hlate : ∀ action ∈ late, action.detached = true)
    (depth : Nat) (context : Context) (machine : Machine σ) :
    (machine.run setting (setting.engine.runList depth context late)).2.clock = machine.clock := by
  induction late generalizing machine with
  | nil =>
      rw [Engine.runList_nil]
      rfl
  | cons action rest ih =>
      obtain ⟨hfirst, hrest⟩ := List.forall_mem_cons.1 hlate
      have hrun := run_bind setting (setting.engine.runList depth context rest)
        (fun run => .done (run.afterStart machine.tasks.length))
        (machine.start setting { action, context, depth }).2
      rw [Engine.runList_detached _ _ _ _ hfirst]
      exact (congrArg (·.2.clock) hrun).trans (ih hrest _)

theorem clock_run_append_of_detached {late : List Action}
    (hlate : ∀ action ∈ late, action.detached = true) (depth : Nat) (context : Context)
    (actions : List Action) (machine : Machine σ) :
    (machine.run setting (setting.engine.runList depth context (actions ++ late))).2.clock =
      (machine.run setting (setting.engine.runList depth context actions)).2.clock := by
  rw [Engine.runList_append, run_bind, Engine.thenRun]
  split
  · rw [run_bind]
    exact clock_run_of_detached hlate depth _ _
  · rfl

/-- How long a run over a list of actions takes, whatever else is scheduled.  It takes the
delays of the actions that it performs and the time until their requests are answered, and
nothing else.  Of the actions that it comes to it performs those that do not stand too deep
and whose conditions hold; it does not come to the actions behind one with which the list is
given up, nor to those of a branch that is not taken.  Detached actions at the end of the list
add nothing. -/
theorem duration_of_run (setting : Setting σ) (machine : Machine σ) (depth : Nat)
    (context : Context) (actions : List Action) :
    let script := setting.engine.runList depth context
    let after := (machine.run setting (script actions)).2
    (∃ (trials : List Trial) (performed : List Performance),
      setting.engine.Course depth context actions (machine.conduct setting (script actions))
        trials ∧
      performed.map Performance.trial = trials.filter setting.engine.Executes ∧
      (∀ performance ∈ performed, performance.IsAnswered) ∧
      performed.filterMap Performance.answer = machine.answers setting (script actions) ∧
      after.clock = machine.clock + (performed.map Performance.ms).sum) ∧
    ∀ late : List Action, (∀ action ∈ late, action.detached = true) →
      (machine.run setting (script (actions ++ late))).2.clock = after.clock := by
  intro script after
  have hclock := clock_run setting (script actions) machine
  have hreplies := replies_conduct setting (script actions) machine
  obtain ⟨trials, hcourse⟩ :=
    Engine.exists_course setting.engine depth context actions
      (walk_conduct setting (script actions) machine)
  rw [← Act.replies_settled, hcourse.settled] at hreplies
  rw [← Act.waits_settled, hcourse.settled] at hclock
  obtain ⟨performed, htrials, hanswered, hanswers, hsum⟩ :=
    Engine.exists_performances hcourse.attempted hreplies
  refine ⟨⟨trials, performed, hcourse, htrials, hanswered, hanswers, ?_⟩, fun late hlate => ?_⟩
  · rw [hsum, ← Nat.add_assoc]
    exact hclock
  · exact clock_run_append_of_detached hlate depth context actions machine

end Machine

/-- Surroundings whose answers are listed, the next one first.  Branches in branches stand too
deep. -/
def Setting.listed : Setting (List Answer) where
  engine := { maxDepth := 1 }
  host := {
    answer := fun _ _ answers => (answers.headD { reply := .ok default }, answers.tail)
    call := fun _ answers => answers
    notify := fun _ answers => answers }

/-- A request, and behind its answer another one, which is refused; then an action that is
skipped, one that fails and one that the list does not come to. -/
def Action.errands : List Action :=
  let deep : Action := { kind := .closeModal "form", delay := some 100 }
  let refused : Action :=
    { kind := .callApi default .get none none, delay := some 3, onError := some [deep] }
  [{ kind := .callApi default .get none none, delay := some 5, onSuccess := some [refused]
     onError := some [{ kind := .closeModal "form", delay := some 200 }] },
   { kind := .closeModal "form", delay := some 50
     condition := some { field := "response.error", operator := .isNotEmpty } },
   { kind := .unknown, delay := some 7 },
   { kind := .closeModal "form", delay := some 1000 }]

/-- The errands with their two answers. -/
def Machine.withErrands : Machine (List Answer) where
  world := {
    page := default
    host := [{ delay := 11, reply := .ok default }, { delay := 13, reply := .error default }] }

/-- Five milliseconds of delay and eleven until the first answer, three and thirteen for the
request behind it, and seven before the action that fails.  A task started at the end changes
nothing. -/
theorem Machine.duration_of_errands :
    let late : Action := { kind := .refresh "list", delay := some 20, detached := true }
    (∃ performed : List Performance,
      performed.filterMap Performance.answer =
        withErrands.answers .listed (Setting.listed.engine.runList 0 {} Action.errands) ∧
      (performed.map Performance.ms).sum = 39) ∧
      (∀ action ∈ [late], action.detached = true) ∧
      (withErrands.run .listed (Setting.listed.engine.runList 0 {} Action.errands)).2.clock = 39 ∧
      (withErrands.run .listed
        (Setting.listed.engine.runList 0 {} (Action.errands ++ [late]))).2.clock = 39 := by
  intro late
  have hlate : ∀ action ∈ [late], action.detached = true := List.forall_mem_singleton.2 rfl
  have hclock : (withErrands.run .listed
      (Setting.listed.engine.runList 0 {} Action.errands)).2.clock = 39 := by
    decide +kernel
  have hzero : withErrands.clock = 0 := rfl
  obtain ⟨⟨trials, performed, -, -, -, hanswers, hsum⟩, hmore⟩ :=
    duration_of_run .listed withErrands 0 {} Action.errands
  rw [hzero, Nat.zero_add] at hsum
  exact ⟨⟨performed, hanswers, hsum.symm.trans hclock⟩, hlate, hclock,
    (hmore [late] hlate).trans hclock⟩

end LivePage
