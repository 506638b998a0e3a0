import LivePage.Proofs.Schedule.History

/-!
# Isolation from the page

Runs do not see the page that they run on.  A context is a snapshot, and no script
of an action looks at the page again: two crowds on different pages, in equal
surroundings and under one schedule, do the same in the same order and end alike,
whatever is written to either page meanwhile.
-/

namespace LivePage

/-- Every act but a look at the page. -/
def Act.IsBlind : Act → Prop
  | observed _ => False
  | _ => True

/-- Actions never look at the page. -/
theorem Engine.covers_isBlind (engine : Engine) :
    engine.Covers (fun _ => True) Act.IsBlind where
  paused := fun _ => trivial
  asked := fun _ _ => trivial
  performed := fun _ _ _ _ _ => trivial
  started := fun _ _ _ => trivial

theorem Script.not_does_observe (next : PageState → Script α) :
    ¬ (Script.observe next).Does Act.IsBlind := by
  intro hdoes
  have hleads : Leads (.observe next) [.observed default] (next default) := .observe .refl
  exact (hdoes.of_leads hleads).1 _ (.head _)

/-- Surroundings whose answers do not depend on the page. -/
def Host.IgnoresPage (host : Host σ) : Prop :=
  ∀ page other request state, host.answer page request state = host.answer other request state

/-- Two listeners that the surroundings cannot tell apart.  They may write different
things to their pages. -/
def Host.Alike (host : Host σ) (listener other : Listener) : Prop :=
  ∀ state, host.notify listener state = host.notify other state

/-- Two worlds in equal surroundings, with listeners that are alike.  The pages may
differ. -/
structure World.Matches (host : Host σ) (world other : World σ) : Prop where
  state : world.host = other.host
  listeners : ∀ component, Option.Rel host.Alike (world.listeners.listener? component)
    (other.listeners.listener? component)

variable {setting : Setting σ} {world other : World σ}

theorem World.Matches.perform {host : Host σ} (hmatches : world.Matches host other)
    (effect : Effect) : (world.perform host effect).Matches host (other.perform host effect) := by
  cases effect with
  | store op => exact ⟨hmatches.state, hmatches.listeners⟩
  | refresh component =>
      have hlisteners := hmatches.listeners component
      rw [World.perform, World.perform]
      generalize world.listeners.listener? component = first at hlisteners ⊢
      generalize other.listeners.listener? component = second at hlisteners ⊢
      cases hlisteners with
      | none => exact hmatches
      | @some listener twin halike =>
          refine ⟨?_, hmatches.listeners⟩
          calc
            host.notify listener world.host = host.notify twin world.host := halike world.host
            _ = host.notify twin other.host := by rw [hmatches.state]
  | call call => exact ⟨congrArg (host.call call) hmatches.state, hmatches.listeners⟩

namespace Machine

/-- Two machines that are alike but for their pages. -/
structure Matches (setting : Setting σ) (machine other : Machine σ) : Prop where
  world : machine.world.Matches setting.host other.world
  clock : machine.clock = other.clock
  tasks : machine.tasks = other.tasks
  queue : machine.queue = other.queue

variable {machine twin : Machine σ}

theorem Matches.perform (hmatches : machine.Matches setting twin) (effect : Effect) :
    (machine.perform setting effect).Matches setting (twin.perform setting effect) :=
  ⟨hmatches.world.perform effect, hmatches.clock, hmatches.tasks, hmatches.queue⟩

/-- Both machines get the same answer. -/
theorem Matches.answer (hhost : setting.host.IgnoresPage) (hmatches : machine.Matches setting twin)
    (message : HttpRequest) :
    (machine.answer setting message).1 = (twin.answer setting message).1 ∧
      (machine.answer setting message).2.Matches setting (twin.answer setting message).2 := by
  have hanswer : setting.host.answer machine.world.page message machine.world.host =
      setting.host.answer twin.world.page message twin.world.host := by
    rw [hhost _ twin.world.page, hmatches.world.state]
  have hreply : (machine.answer setting message).1 = (twin.answer setting message).1 :=
    congrArg (fun answered => answered.1) hanswer
  have hstate : (machine.answer setting message).2.world.host =
      (twin.answer setting message).2.world.host :=
    congrArg (fun answered => answered.2) hanswer
  exact ⟨hreply, ⟨hstate, hmatches.world.listeners⟩, hmatches.clock, hmatches.tasks,
    hmatches.queue⟩

theorem Matches.start (hmatches : machine.Matches setting twin) (job : Job) :
    (machine.start setting job).2.Matches setting (twin.start setting job).2 := by
  refine ⟨hmatches.world, hmatches.clock, ?_, ?_⟩
  · rw [Machine.start, Machine.start, hmatches.tasks]
  · rw [Machine.start, Machine.start, hmatches.tasks, hmatches.queue]

/-- A script that does not look at the page comes equally far on both machines, and
does the same. -/
theorem Matches.advance (hhost : setting.host.IgnoresPage) {script : Script α}
    (hblind : script.Does Act.IsBlind) (hmatches : machine.Matches setting twin) :
    (Machine.advance setting script machine).1 = (Machine.advance setting script twin).1 ∧
      acts setting script machine = acts setting script twin ∧
      (Machine.advance setting script machine).2.Matches setting
        (Machine.advance setting script twin).2 := by
  induction script generalizing machine twin with
  | done result => exact ⟨rfl, rfl, hmatches⟩
  | perform effect next ih =>
      obtain ⟨hprogress, hacts, hafter⟩ :=
        ih (hblind.of_leads (.perform .refl)).2 (hmatches.perform effect)
      refine ⟨hprogress, ?_, hafter⟩
      rw [acts, acts, hacts]
  | observe next ih => exact absurd hblind (Script.not_does_observe next)
  | pause ms next ih =>
      rw [Machine.advance, Machine.advance, acts, acts]
      split
      · obtain ⟨hprogress, hacts, hafter⟩ := ih (hblind.of_leads (.pause .refl)).2 hmatches
        exact ⟨hprogress, congrArg _ hacts, hafter⟩
      · exact ⟨rfl, rfl, hmatches⟩
  | request message next ih =>
      obtain ⟨hanswer, hsent⟩ := hmatches.answer hhost message
      rw [advance_request, advance_request, acts_request, acts_request, hanswer]
      split
      · obtain ⟨hprogress, hacts, hafter⟩ := ih _ (hblind.of_leads (.request .refl)).2 hsent
        exact ⟨hprogress, congrArg _ hacts, hafter⟩
      · exact ⟨rfl, rfl, hsent⟩
  | start job next ih =>
      obtain ⟨hprogress, hacts, hafter⟩ :=
        ih machine.tasks.length (hblind.of_leads (.start .refl)).2 (hmatches.start job)
      rw [Machine.advance, Machine.advance, acts, acts]
      simp only [Machine.start] at hprogress hacts hafter ⊢
      rw [hmatches.tasks] at hprogress hacts hafter ⊢
      exact ⟨hprogress, congrArg _ hacts, hafter⟩

theorem Matches.pop (hmatches : machine.Matches setting twin) (task : TaskId) :
    (machine.pop task).Matches setting (twin.pop task) :=
  ⟨hmatches.world, hmatches.clock, hmatches.tasks, congrArg (List.erase · task) hmatches.queue⟩

theorem Matches.setState (hmatches : machine.Matches setting twin) (task : TaskId)
    (state : TaskState) :
    (machine.setState task state).Matches setting (twin.setState task state) :=
  ⟨hmatches.world, hmatches.clock, congrArg (List.modify · task _) hmatches.tasks, hmatches.queue⟩

theorem Matches.rest (hmatches : machine.Matches setting twin) :
    (machine.rest setting).Matches setting (twin.rest setting) :=
  ⟨⟨congrArg setting.host.rest hmatches.world.state, hmatches.world.listeners⟩, hmatches.clock,
    hmatches.tasks, hmatches.queue⟩

theorem Matches.setClock (hmatches : machine.Matches setting twin) (clock : Nat) :
    (machine.setClock clock).Matches setting (twin.setClock clock) := by
  refine ⟨hmatches.world, rfl, ?_, ?_⟩
  · rw [Machine.setClock, Machine.setClock, hmatches.tasks]
  · rw [Machine.setClock, Machine.setClock, hmatches.tasks, hmatches.queue]

theorem Matches.abort (hmatches : machine.Matches setting twin) (task : TaskId) :
    (machine.abort task).Matches setting (twin.abort task) := by
  have hover : machine.isOver task = twin.isOver task := by
    rw [isOver, isOver, outcome?, outcome?, hmatches.tasks]
  rw [Machine.abort, Machine.abort, hover]
  split
  · exact hmatches
  · exact hmatches.setState task .aborted

/-- A task that is ready has the same turn on both machines. -/
theorem Matches.runTask (hhost : setting.host.IgnoresPage) {script : Script Outcome}
    (hblind : script.Does Act.IsBlind) (hmatches : machine.Matches setting twin) {task : TaskId}
    (hready : (twin.tasks[task]?).map Task.state = some (.ready script)) :
    (machine.runTask setting task).Matches setting (twin.runTask setting task) := by
  obtain ⟨hprogress, -, hafter⟩ := hmatches.advance hhost hblind
  rw [runTask_of_ready setting machine (hmatches.tasks ▸ hready),
    runTask_of_ready setting twin hready, hprogress, hafter.clock]
  exact (hafter.setState task _).rest

end Machine

/-- Two moves that differ at most in what is written to the page from outside. -/
inductive Move.Matches : Move → Move → Prop where
  | same (move : Move) : Matches move move
  | write (ops others : List StoreOp) : Matches (.write ops) (.write others)

namespace Crowd

/-- Two crowds that are alike but for their pages, and have done the same. -/
structure Matches (setting : Setting σ) (crowd twin : Crowd σ) : Prop where
  machine : crowd.machine.Matches setting twin.machine
  threads : crowd.threads = twin.threads
  acts : crowd.acts = twin.acts

variable {crowd twin : Crowd σ}

theorem acts_afterTurn (crowd : Crowd σ) (actor : Actor) (acts : List Act) (machine : Machine σ)
    (threads : List Thread) :
    (crowd.afterTurn actor acts machine threads).acts =
      crowd.acts ++ acts.map fun act => (actor, act) := by
  rw [Crowd.acts, afterTurn, List.filterMap_append, List.filterMap_map]
  congr 1
  induction acts with
  | nil => rfl
  | cons act rest ih => exact congrArg _ ih

/-- Behind a turn of one actor two crowds are alike, if their machines and runs
are. -/
theorem Matches.afterTurn (hmatches : crowd.Matches setting twin) (actor : Actor) (acts : List Act)
    {machine other : Machine σ} (hmachine : machine.Matches setting other) (threads : List Thread) :
    (crowd.afterTurn actor acts machine threads).Matches setting
      (twin.afterTurn actor acts other threads) where
  machine := hmachine
  threads := rfl
  acts := by rw [acts_afterTurn, acts_afterTurn, hmatches.acts]

/-- What is written from outside does not matter. -/
theorem Matches.write (hmatches : crowd.Matches setting twin) (ops others : List StoreOp) :
    (crowd.step setting (.write ops)).Matches setting (twin.step setting (.write others)) where
  machine := ⟨⟨hmatches.machine.world.state, hmatches.machine.world.listeners⟩,
    hmatches.machine.clock, hmatches.machine.tasks, hmatches.machine.queue⟩
  threads := hmatches.threads
  acts := by
    rw [Crowd.acts, Crowd.acts, Crowd.step, Crowd.step, List.filterMap_append,
      List.filterMap_append]
    exact congrArg (· ++ []) hmatches.acts

/-- A new run does the same in two crowds that are alike. -/
theorem Matches.enter (hhost : setting.host.IgnoresPage) (hmatches : crowd.Matches setting twin)
    (errand : Errand) :
    (crowd.step setting (.enter errand)).Matches setting (twin.step setting (.enter errand)) := by
  have hscript : (setting.engine.runErrand errand).Does Act.IsBlind :=
    setting.engine.covers_isBlind.does_runList _ _ _ fun _ _ => trivial
  obtain ⟨hprogress, hacts, hafter⟩ := hmatches.machine.advance hhost hscript
  rw [Crowd.step, Crowd.step, hprogress, hacts, hmatches.machine.clock, hmatches.threads]
  exact hmatches.afterTurn _ _ hafter _

/-- A run that goes on does the same in two crowds that are alike. -/
theorem Matches.goOn (hhost : setting.host.IgnoresPage) (hmatches : crowd.Matches setting twin)
    (hblind : crowd.Behaves Act.IsBlind) (i : Nat) :
    (crowd.step setting (.goOn i)).Matches setting (twin.step setting (.goOn i)) := by
  rw [Crowd.step, Crowd.step, ← hmatches.threads, ← hmatches.machine.clock]
  split
  · next deadline script hstate =>
      split
      · have hscript := hblind.does_of_waiting hstate
        obtain ⟨hprogress, hacts, hafter⟩ := hmatches.machine.advance hhost hscript
        simp only [hprogress, hacts]
        exact hmatches.afterTurn _ _ hafter _
      · exact hmatches
  · exact hmatches

/-- A task in its turn does the same in two crowds that are alike. -/
theorem Matches.turn (hhost : setting.host.IgnoresPage) (hmatches : crowd.Matches setting twin)
    (hblind : crowd.Behaves Act.IsBlind) (task : TaskId) :
    (crowd.step setting (.turn task)).Matches setting (twin.step setting (.turn task)) := by
  have hpopped := hmatches.machine.pop task
  rw [Crowd.step, Crowd.step]
  simp only [← hpopped.tasks]
  split
  · next script hready =>
      have hscript : script.Does Act.IsBlind := hblind.does_of_ready hready
      obtain ⟨-, hacts, -⟩ := hpopped.advance hhost hscript
      rw [hacts, hmatches.threads]
      exact hmatches.afterTurn _ _ (hpopped.runTask hhost hscript (hpopped.tasks ▸ hready)) _
  · exact ⟨hpopped, hmatches.threads, hmatches.acts⟩

/-- One move does the same to two crowds that are alike. -/
theorem Matches.step (hhost : setting.host.IgnoresPage) (hmatches : crowd.Matches setting twin)
    (hblind : crowd.Behaves Act.IsBlind) {move other : Move} (hmove : move.Matches other) :
    (crowd.step setting move).Matches setting (twin.step setting other) := by
  cases hmove with
  | write ops others => exact hmatches.write ops others
  | same =>
      cases move with
      | enter errand => exact hmatches.enter hhost errand
      | goOn i => exact hmatches.goOn hhost hblind i
      | turn task => exact hmatches.turn hhost hblind task
      | tick ms =>
          rw [Crowd.step, Crowd.step, hmatches.machine.clock]
          exact ⟨hmatches.machine.setClock _, hmatches.threads, hmatches.acts⟩
      | rest => exact ⟨hmatches.machine.rest, hmatches.threads, hmatches.acts⟩
      | abort task => exact ⟨hmatches.machine.abort task, hmatches.threads, hmatches.acts⟩
      | write ops => exact hmatches.write ops ops

theorem matches_fresh (hworlds : world.Matches setting.host other) :
    (fresh world).Matches setting (fresh other) :=
  ⟨⟨hworlds, rfl, rfl, rfl⟩, rfl, rfl⟩

/-- Under one schedule two crowds that are alike stay so. -/
theorem Matches.play (hhost : setting.host.IgnoresPage) (hmatches : crowd.Matches setting twin)
    (hblind : crowd.Behaves Act.IsBlind) {moves others : List Move}
    (hmoves : List.Forall₂ Move.Matches moves others) :
    (crowd.play setting moves).Matches setting (twin.play setting others) := by
  induction hmoves generalizing crowd twin with
  | nil => exact hmatches
  | @cons move _ _ _ hmove _ ih =>
      have hafter := hblind.step_of_covers setting.engine.covers_isBlind move
      exact ih (hmatches.step hhost hblind hmove) hafter

/-- Runs on different pages do the same.  In surroundings that do not see the page,
and with listeners that are alike, two crowds under one schedule do the same in the
same order, whatever is written to either page; their runs and their tasks come
equally far, with equal outcomes, and the surroundings cannot tell them apart. -/
theorem snapshot_isolation (setting : Setting σ) (hhost : setting.host.IgnoresPage)
    {world other : World σ} (hworlds : world.Matches setting.host other) {moves others : List Move}
    (hmoves : List.Forall₂ Move.Matches moves others) :
    let one := (fresh world).play setting moves
    let two := (fresh other).play setting others
    one.acts = two.acts ∧ one.threads = two.threads ∧ one.machine.tasks = two.machine.tasks ∧
      one.machine.world.host = two.machine.world.host ∧
      ∀ actor page, (actor, .observed page) ∉ one.acts := by
  have hmatches := (matches_fresh hworlds).play hhost (behaves_fresh Act.IsBlind world) hmoves
  refine ⟨hmatches.acts, hmatches.threads, hmatches.machine.tasks, hmatches.machine.world.state,
    fun actor page hmem => ?_⟩
  have hblind := behaves_play setting.engine.covers_isBlind world moves
  exact hblind.acts actor _ (mem_history_of_mem_acts hmem)

/-- A run that toggles a component behind the answer to a request, on a page that
shows the component, and on one that hides it and is written to while the run waits. -/
theorem snapshot_isolation_of_toggle :
    let toggle : Action := { kind := .setVisibility "b" .toggle }
    let action : Action := { kind := .callApi default .get none none, onSuccess := some [toggle] }
    let hide : List StoreOp := [.edit "b" (.visibility .hideIt)]
    let moves (ops : List StoreOp) : List Move :=
      [.enter { actions := [action] }, .write ops, .tick 5, .goOn 0]
    let one := (fresh { page := default, host := 0 }).play .counting (moves [])
    let two := (fresh { page := PageState.applyAll default hide, host := 0 }).play .counting
      (moves hide)
    one.acts = two.acts ∧ one.acts.length = 2 ∧ one.threads = two.threads := by
  intro toggle action hide moves one two
  have hhost : (Setting.counting).host.IgnoresPage := fun _ _ _ _ => rfl
  have hworlds : World.Matches (Setting.counting).host { page := default, host := 0 }
      { page := PageState.applyAll default hide, host := 0 } := ⟨rfl, fun _ => .none⟩
  have hmoves : List.Forall₂ Move.Matches (moves []) (moves hide) :=
    .cons (.same _) (.cons (.write [] hide) (.cons (.same _) (.cons (.same _) .nil)))
  obtain ⟨hacts, hthreads, -⟩ := snapshot_isolation .counting hhost hworlds hmoves
  exact ⟨hacts, rfl, hthreads⟩

end Crowd

end LivePage
