import LivePage.Proofs.Schedule.Crowd
import LivePage.Proofs.Schedule.Fifo

/-!
# Runs in the foreground

A machine that runs a list in the foreground plays one of the schedules of a crowd:
the run begins, and all that the machine does while the run waits are moves.  So
the results of the machine are results of crowds, and a run that begins can always
be brought to its end.
-/

namespace LivePage

namespace Crowd

variable {σ : Type} {setting : Setting σ} {crowd : Crowd σ}

theorem play_append (setting : Setting σ) (crowd : Crowd σ) (first second : List Move) :
    crowd.play setting (first ++ second) = (crowd.play setting first).play setting second :=
  List.foldl_append

/-- A run goes on when the moment has come that it waits for. -/
theorem step_goOn {i deadline : Nat} {errand : Errand} {script : Script Run}
    (hthread : crowd.threads[i]? = some ⟨errand, .waiting deadline script⟩)
    (hdue : deadline ≤ crowd.machine.clock) :
    (crowd.step setting (.goOn i)).machine =
        (Machine.advance setting script crowd.machine).2 ∧
      (crowd.step setting (.goOn i)).threads[i]? = some ⟨errand, .afterTurn crowd.machine.clock
        (Machine.advance setting script crowd.machine).1⟩ := by
  simp only [step, hthread, Option.map_some, if_pos hdue]
  refine ⟨rfl, ?_⟩
  rw [afterTurn, List.getElem?_modify_eq, hthread]
  rfl

/-- A step of the machine is a move of the crowd. -/
theorem exists_move_of_step {after : Machine σ} (hstep : Machine.Step setting crowd.machine after) :
    ∃ move, move.AbortsOnly [] ∧ (crowd.step setting move).machine = after ∧
      (crowd.step setting move).threads = crowd.threads := by
  cases hstep with
  | @turn task _ =>
      refine ⟨.turn task, trivial, ?_⟩
      rw [step]
      split
      · exact ⟨rfl, rfl⟩
      · next hready =>
          have hnot : ¬ ∃ script,
              ((crowd.machine.pop task).tasks[task]?).map Task.state = some (.ready script) := by
            rintro ⟨script, hscript⟩
            exact hready script hscript
          exact ⟨(Machine.runTask_of_not_ready setting hnot).symm, rfl⟩
  | @tick clock hle =>
      refine ⟨.tick (clock - crowd.machine.clock), trivial, ?_, rfl⟩
      rw [step, Nat.add_sub_cancel' hle]
  | rest => exact ⟨.rest, trivial, rfl, rfl⟩

/-- A part of a schedule of the machine is one of the crowd. -/
theorem exists_moves_of_steps {after : Machine σ}
    (hsteps : Machine.Steps setting crowd.machine after) :
    ∃ moves : List Move, (∀ move ∈ moves, move.AbortsOnly []) ∧
      (crowd.play setting moves).machine = after ∧
      (crowd.play setting moves).threads = crowd.threads := by
  induction hsteps with
  | refl => exact ⟨[], by simp, rfl, rfl⟩
  | tail _ hstep ih =>
      obtain ⟨moves, hmoves, hmachine, hthreads⟩ := ih
      rw [← hmachine] at hstep
      obtain ⟨move, hmove, hafter, hsame⟩ := exists_move_of_step hstep
      refine ⟨moves ++ [move], ?_, ?_, ?_⟩
      · exact List.forall_mem_append.2 ⟨hmoves, List.forall_mem_singleton.2 hmove⟩
      · rw [play_append]
        exact hafter
      · rw [play_append]
        exact hsame.trans hthreads

/-- A run that waits goes on behind the moves with which the machine lets the time
pass. -/
theorem exists_moves_of_pass {machine : Machine σ} (htidy : machine.Tidy) {ms i : Nat}
    {errand : Errand} {next : Script Run} (hmachine : crowd.machine = machine)
    (hthread : crowd.threads[i]? = some ⟨errand, .waiting (machine.clock + ms) next⟩) :
    ∃ moves, (crowd.play setting moves).machine =
        (Machine.advance setting next (machine.pass setting ms)).2 ∧
      (crowd.play setting moves).threads[i]? = some ⟨errand, .afterTurn
        (machine.pass setting ms).clock
        (Machine.advance setting next (machine.pass setting ms)).1⟩ := by
  rw [← hmachine] at htidy hthread ⊢
  obtain ⟨hsteps, hclock⟩ : Machine.Steps setting crowd.machine _ ∧ _ := htidy.pass ms
  obtain ⟨moves, -, hpassed, hthreads⟩ := exists_moves_of_steps hsteps
  rw [← hclock, ← hpassed, ← hthreads] at hthread
  refine ⟨moves ++ [.goOn i], ?_⟩
  rw [play_append, ← hpassed]
  exact step_goOn hthread (Nat.le_refl _)

/-- A run that has had its first turn comes to the end to which the machine brings
it.  The induction is on its script. -/
theorem exists_moves_of_advance {machine : Machine σ} (htidy : machine.Tidy) {i : Nat}
    {errand : Errand} (script : Script Run)
    (hmachine : crowd.machine = (Machine.advance setting script machine).2)
    (hthread : crowd.threads[i]? = some ⟨errand, .afterTurn machine.clock
      (Machine.advance setting script machine).1⟩) :
    ∃ moves, (crowd.play setting moves).machine = (machine.run setting script).2 ∧
      (crowd.play setting moves).threads[i]? =
        some ⟨errand, .ended (machine.run setting script).1⟩ := by
  induction script generalizing machine crowd with
  | done result => exact ⟨[], hmachine, hthread⟩
  | perform effect next ih => exact ih (htidy.withWorld _) hmachine hthread
  | observe next ih => exact ih _ htidy hmachine hthread
  | pause ms next ih =>
      rw [Machine.advance] at hmachine hthread
      rw [Machine.run]
      by_cases hms : ms = 0
      · rw [if_pos hms] at hmachine hthread ⊢
        exact ih htidy hmachine hthread
      · rw [if_neg hms] at hmachine hthread ⊢
        obtain ⟨moves, hafter, hgone⟩ := exists_moves_of_pass htidy hmachine hthread
        obtain ⟨later, hlast, hended⟩ := ih (htidy.steps (htidy.pass ms).1) hafter hgone
        rw [← play_append] at hlast hended
        exact ⟨_, hlast, hended⟩
  | request message next ih =>
      have hsent := htidy.withWorld (machine.answer setting message).2.world
      rw [Machine.advance_request] at hmachine hthread
      rw [Machine.run_request]
      by_cases hdelay : (machine.answer setting message).1.delay = 0
      · rw [if_pos hdelay] at hmachine hthread ⊢
        exact ih _ hsent hmachine hthread
      · rw [if_neg hdelay] at hmachine hthread ⊢
        obtain ⟨moves, hafter, hgone⟩ := exists_moves_of_pass hsent hmachine hthread
        obtain ⟨later, hlast, hended⟩ := ih _ (hsent.steps (hsent.pass _).1) hafter hgone
        rw [← play_append] at hlast hended
        exact ⟨_, hlast, hended⟩
  | start job next ih => exact ih _ (htidy.start job) hmachine hthread

/-- What a machine makes of a list in the foreground is what a crowd can make of
it: some moves bring the run to the end to which the machine brings it. -/
theorem exists_moves_of_run (setting : Setting σ) {crowd : Crowd σ}
    (htidy : crowd.machine.Tidy) (errand : Errand) :
    ∃ moves, (crowd.play setting (.enter errand :: moves)).machine =
        (crowd.machine.run setting (setting.engine.runErrand errand)).2 ∧
      (crowd.play setting (.enter errand :: moves)).threads[crowd.threads.length]? =
        some ⟨errand, .ended (crowd.machine.run setting (setting.engine.runErrand errand)).1⟩ :=
  exists_moves_of_advance htidy (setting.engine.runErrand errand) rfl
    List.getElem?_concat_length

end Crowd

end LivePage
