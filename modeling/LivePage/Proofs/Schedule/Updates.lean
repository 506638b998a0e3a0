import LivePage.Proofs.Schedule.Scenes
import LivePage.Proofs.Store.Edits

/-!
# Updates of one component

No update of a component is lost, however many runs and tasks work on it.  If they
touch the component only by filter parameters, toggles, the loading flag and the
value, then at every moment of every schedule its state is what their edits amount
to, in the order in which they were made.  And the edits that each of them made are
those of the actions that it executed, with the values that these had there.
-/

namespace LivePage

/-- Actions of the kind touch a component gently, if at all. -/
def ActionKind.IsGentle (id : String) : ActionKind → Prop
  | setValue component _ field => component = id → field = none
  | setVisibility component change => component = id → change = .toggle
  | _ => True

/-- The change touches a component gently, if at all. -/
def StoreOp.IsGentle (id : String) (op : StoreOp) : Prop :=
  ∀ edit, op.edit? id = some edit → edit.Gentle

/-- The edit that an act makes to a component. -/
def Act.edit? (id : String) : Act → Option ComponentState.Edit
  | performed (.store op) => op.edit? id
  | _ => none

/-- The edit that an action of a kind makes to a component. -/
def ActionKind.edit? (id : String) (context : Context) :
    ActionKind → Option ComponentState.Edit
  | setValue component value field =>
      if component = id then some (.assign (value.interpolate context) field) else none
  | filterData component field value =>
      if component = id then some (.filter field (value.interpolate context)) else none
  | setVisibility component change => if component = id then some (.visibility change) else none
  | setLoading component flag =>
      if component = id then some (.merge { loading := some flag }) else none
  | _ => none

/-- The act does nothing to a component, unless it edits it. -/
def Act.Keeps (id : String) : Act → Prop
  | performed (.store op) => op.Keeps id
  | _ => True

/-- The act touches a component gently, if at all, and starts only tasks that do
so. -/
def Act.IsGentle (id : String) : Act → Prop
  | performed (.store op) => op.IsGentle id
  | started job _ => ∀ kind ∈ job.action.kinds, kind.IsGentle id
  | _ => True

theorem StoreOp.isGentle_edit {id component : String} {edit : ComponentState.Edit}
    (hgentle : component = id → edit.Gentle) : (StoreOp.edit component edit).IsGentle id := by
  intro other hother
  rw [edit?] at hother
  split at hother
  · next heq =>
      rw [← Option.some.inj hother]
      exact hgentle heq
  · cases hother

namespace Engine

variable {engine : Engine}

/-- The edit that an action makes to a component if it is executed. -/
def edit? (engine : Engine) (id : String) (trial : Trial) : Option ComponentState.Edit :=
  if engine.Executes trial then trial.action.kind.edit? id trial.context else none

/-- The effects of a kind make the edit of the kind. -/
theorem filterMap_edit?_effects (engine : Engine) (id : String) (context : Context)
    (kind : ActionKind) :
    ((engine.effects context kind).map .performed).filterMap (Act.edit? id) =
      (kind.edit? id context).toList := by
  have hone (component : String) (edit : ComponentState.Edit) (rest : List Effect)
      (hrest : (rest.map .performed).filterMap (Act.edit? id) = []) :
      ((.store (.edit component edit) :: rest).map .performed).filterMap (Act.edit? id) =
        (if component = id then some edit else none).toList := by
    rw [List.map_cons, filterMap_cons_toList, hrest, List.append_nil]
    rfl
  cases kind with
  | setValue component value field =>
      cases field with
      | none => exact hone component _ [] rfl
      | some name => exact hone component _ [_] rfl
  | filterData component field value => exact hone component _ [_] rfl
  | setVisibility component change => exact hone component _ [] rfl
  | setLoading component flag => exact hone component _ [] rfl
  | _ => rfl

theorem filterMap_edit?_waited (id : String) (ms : Nat) :
    (Script.waited ms).filterMap (Act.edit? id) = [] := by
  refine List.filterMap_eq_nil_iff.2 fun act hact => ?_
  rw [Script.eq_paused_of_mem_waited hact]
  rfl

/-- An attempt makes the edit of its action if this is executed. -/
theorem Attempted.filterMap_edit? {depth : Nat} {context : Context} {action : Action}
    {told : List Act} {outcome : Outcome}
    (hattempted : engine.Attempted depth context action told outcome) (id : String) :
    told.filterMap (Act.edit? id) =
      (engine.edit? id ⟨depth, context, action, told, outcome⟩).toList := by
  rw [edit?]
  cases hattempted with
  | tooDeep hdeep =>
      rw [if_neg fun hexecutes => absurd hexecutes.1 (Nat.not_le.2 hdeep)]
      rfl
  | skipped _ hrefused =>
      rw [if_neg fun hexecutes => Bool.false_ne_true (hrefused.symm.trans hexecutes.2)]
      rfl
  | asked reply hdepth hallows hkind =>
      rw [if_pos ⟨hdepth, hallows⟩, hkind, List.filterMap_append, filterMap_edit?_waited]
      rfl
  | performed hdepth hallows =>
      rw [if_pos ⟨hdepth, hallows⟩, List.filterMap_append, filterMap_edit?_waited,
        filterMap_edit?_effects]
      rfl

/-- A course makes the edits of the actions that are executed, one after the other. -/
theorem Course.filterMap_edit? {depth : Nat} {context : Context} {actions : List Action}
    {acts : List Act} {trials : List Trial}
    (hcourse : engine.Course depth context actions acts trials) (id : String) :
    acts.filterMap (Act.edit? id) = trials.filterMap (engine.edit? id) := by
  induction hcourse with
  | nil => rfl
  | detached _ _ ih => exact (List.filterMap_cons_none rfl).trans ih
  | givenUp _ _ hattempted _ ih =>
      rw [filterMap_cons_toList, List.filterMap_append, hattempted.filterMap_edit?, ih]
  | awaited _ _ hattempted _ _ ihinner ihrest =>
      rw [filterMap_cons_toList, List.filterMap_append, List.filterMap_append,
        List.filterMap_append, hattempted.filterMap_edit?, ihinner, ihrest, List.append_assoc]

end Engine

/-- What an action does keeps every component, and is gentle if its kind is. -/
theorem Engine.keeps_of_mem_effects (engine : Engine) (context : Context) (kind : ActionKind)
    (id : String) :
    ∀ effect ∈ engine.effects context kind, (Act.performed effect).Keeps id ∧
      (kind.IsGentle id → (Act.performed effect).IsGentle id) := by
  intro effect heffect
  cases kind with
  | setValue component value field =>
      rw [effects] at heffect
      cases field with
      | none =>
          rw [List.mem_singleton.1 heffect]
          exact ⟨trivial, fun _ => StoreOp.isGentle_edit fun _ => .value _⟩
      | some name =>
          rcases List.mem_cons.1 heffect with rfl | hform
          · refine ⟨trivial, fun hgentle => StoreOp.isGentle_edit fun heq => ?_⟩
            exact absurd (hgentle heq) (by simp)
          · rw [List.mem_singleton.1 hform]
            exact ⟨trivial, fun _ _ hedit => by cases hedit⟩
  | filterData component field value =>
      rcases List.mem_cons.1 heffect with rfl | hrefresh
      · exact ⟨trivial, fun _ => StoreOp.isGentle_edit fun _ => .filter field _⟩
      · rw [List.mem_singleton.1 hrefresh]
        exact ⟨trivial, fun _ => trivial⟩
  | setVisibility component change =>
      rw [List.mem_singleton.1 heffect]
      refine ⟨trivial, fun hgentle => StoreOp.isGentle_edit fun heq => ?_⟩
      rw [hgentle heq]
      exact .toggle
  | setLoading component flag =>
      rw [List.mem_singleton.1 heffect]
      exact ⟨trivial, fun _ => StoreOp.isGentle_edit fun _ => .loading flag⟩
  | callApi | runActions | unknown => exact absurd heffect List.not_mem_nil
  | navigate | showToast | showModal | closeModal | refresh =>
      rw [List.mem_singleton.1 heffect]
      exact ⟨trivial, fun _ => trivial⟩

theorem Engine.covers_keeps (engine : Engine) (id : String) :
    engine.Covers (fun _ => True) (Act.Keeps id) where
  paused := fun _ => trivial
  asked := fun _ _ => trivial
  performed := fun kind _ context effect heffect =>
    (engine.keeps_of_mem_effects context kind id effect heffect).1
  started := fun _ _ _ => trivial

theorem Engine.covers_isGentle (engine : Engine) (id : String) :
    engine.Covers (ActionKind.IsGentle id) (Act.IsGentle id) where
  paused := fun _ => trivial
  asked := fun _ _ => trivial
  performed := fun kind hkind context effect heffect =>
    (engine.keeps_of_mem_effects context kind id effect heffect).2 hkind
  started := fun _ hkinds _ => hkinds

/-- Listeners that have nothing to do with a component. -/
def Listeners.Spare (id : String) (listeners : Listeners Listener) : Prop :=
  ∀ component listener, listeners.listener? component = some listener →
    ∀ op ∈ listener.writes, op.Spares id

/-- The writes of an act keep the component if the act does, and edit it as the act
does. -/
theorem Act.Keeps.writes {id : String} {listeners : Listeners Listener} {act : Act}
    (hkeeps : act.Keeps id) (hlisteners : listeners.Spare id) :
    (∀ op ∈ act.writes listeners, op.Keeps id) ∧
      (act.writes listeners).filterMap (StoreOp.edit? id) = (act.edit? id).toList := by
  cases act with
  | performed effect =>
      cases effect with
      | store op =>
          refine ⟨fun other hother => List.mem_singleton.1 hother ▸ hkeeps, ?_⟩
          rw [Act.writes, Effect.writes, edit?]
          cases hedit : op.edit? id <;> simp [hedit]
      | refresh component =>
          have hnone : (performed (.refresh component)).edit? id = none := rfl
          rw [Act.writes, Effect.writes, hnone]
          cases hlistener : listeners.listener? component with
          | none => simp
          | some listener =>
              have hspares := hlisteners component listener hlistener
              refine ⟨fun op hop => (hspares op hop).1, ?_⟩
              exact List.filterMap_eq_nil_iff.2 fun op hop => (hspares op hop).2
      | call call => exact ⟨by simp [Act.writes, Effect.writes], rfl⟩
  | _ => exact ⟨by simp [Act.writes], rfl⟩

namespace Crowd

variable {σ : Type} {setting : Setting σ} {crowd : Crowd σ}

/-- The edits that runs and tasks made to a component, in order. -/
def edits (crowd : Crowd σ) (id : String) : List ComponentState.Edit :=
  crowd.acts.filterMap fun act => act.2.edit? id

/-- What was written from outside was written by a move. -/
theorem write_mem_of_wrote_mem {moves : List Move} {ops : List StoreOp}
    (hmem : .wrote ops ∈ (crowd.play setting moves).history) :
    .wrote ops ∈ crowd.history ∨ .write ops ∈ moves := by
  induction moves generalizing crowd with
  | nil => exact .inl hmem
  | cons move rest ih =>
      rcases ih hmem with hstep | hrest
      · have hacted {actor : Actor} {acts : List Act} :
            .wrote ops ∉ acts.map (Deed.acted actor) := by simp
        have hchange := change_step setting crowd move
        generalize crowd.step setting move = after at hchange hstep
        cases hchange with
        | calm => exact .inl hstep
        | written others =>
            rcases List.mem_append.1 hstep with hold | hnew
            · exact .inl hold
            · obtain rfl := Deed.wrote.inj (List.mem_singleton.1 hnew)
              exact .inr (.head rest)
        | entered | wentOn | turned =>
            rcases List.mem_append.1 hstep with hold | hnew
            · exact .inl hold
            · exact absurd hnew hacted
      · exact .inr (.tail move hrest)

/-- The writes of a history whose acts keep the component keep it as well, and edit
it as the acts do. -/
theorem filterMap_edit?_writes {id : String} {listeners : Listeners Listener}
    (hlisteners : listeners.Spare id) {history : List Deed}
    (hacts : ∀ actor act, .acted actor act ∈ history → act.Keeps id)
    (hwrote : ∀ ops, .wrote ops ∈ history → ∀ op ∈ ops, op.Spares id) :
    (∀ op ∈ history.flatMap (Deed.writes listeners), op.Keeps id) ∧
      (history.flatMap (Deed.writes listeners)).filterMap (StoreOp.edit? id) =
        (history.filterMap Deed.act?).filterMap fun act => act.2.edit? id := by
  induction history with
  | nil => exact ⟨by simp, rfl⟩
  | cons deed rest ih =>
      obtain ⟨hkeeps, hedits⟩ := ih (fun actor act hmem => hacts actor act (.tail _ hmem))
        (fun ops hmem => hwrote ops (.tail _ hmem))
      rw [List.flatMap_cons, List.filterMap_append, hedits, List.forall_mem_append]
      cases deed with
      | acted actor act =>
          obtain ⟨hkeepsAct, hedit⟩ := (hacts actor act (.head _)).writes hlisteners
          have hcons : (Deed.acted actor act :: rest).filterMap Deed.act? =
              (actor, act) :: rest.filterMap Deed.act? := rfl
          refine ⟨⟨hkeepsAct, hkeeps⟩, ?_⟩
          rw [Deed.writes, hedit, hcons, List.filterMap_cons]
          cases act.edit? id <;> rfl
      | wrote ops =>
          have hspares := hwrote ops (.head _)
          refine ⟨⟨fun op hop => (hspares op hop).1, hkeeps⟩, ?_⟩
          rw [Deed.writes, List.filterMap_eq_nil_iff.2 fun op hop => (hspares op hop).2,
            List.filterMap_cons_none rfl]
          rfl

/-- An edit by actions of gentle kinds is gentle. -/
theorem Behaves.gentle_of_mem_edits {id : String} (hbehaves : crowd.Behaves (Act.IsGentle id)) :
    ∀ edit ∈ crowd.edits id, edit.Gentle := by
  intro edit hedit
  obtain ⟨⟨actor, act⟩, hact, hof⟩ := List.mem_filterMap.1 hedit
  have hgentle := hbehaves.acts actor act (mem_history_of_mem_acts hact)
  cases act with
  | performed effect =>
      cases effect with
      | store op => exact hgentle edit hof
      | _ => cases hof
  | _ => cases hof

/-- The edits of an actor are those of the actions that it came to and executed. -/
theorem AllFollow.exists_edits (hfollow : crowd.AllFollow setting) (id : String) {actor : Actor}
    {errand : Errand} (herrand : crowd.errand? actor = some errand) :
    ∃ later done left,
      setting.engine.Course errand.depth errand.context errand.actions
          (crowd.actsOf actor ++ later) (done ++ left) ∧
        (crowd.IsOver actor → later = []) ∧
        (crowd.actsOf actor).filterMap (Act.edit? id) =
          done.filterMap (setting.engine.edit? id) ∧
        later.filterMap (Act.edit? id) = left.filterMap (setting.engine.edit? id) := by
  obtain ⟨later, run, hwalk, hover⟩ := hfollow.exists_walk herrand
  obtain ⟨trials, hcourse⟩ := Engine.exists_course_iff.2 ⟨run, hwalk⟩
  have hedits := hcourse.filterMap_edit? id
  rw [List.filterMap_append] at hedits
  obtain ⟨done, left, rfl, hdone, hleft⟩ := List.filterMap_eq_append_iff.1 hedits.symm
  exact ⟨later, done, left, hcourse, hover, hdone.symm, hleft.symm⟩

/-- No update of a component is lost.  If runs and tasks, however many, touch a
component only by filter parameters, toggles, the loading flag and the value, then
at every moment of every schedule its visibility is flipped once for every toggle,
and each of the other parts holds what was written to it last.  Actions of kinds
that touch it so do nothing else to it.  The edits are those of the actions that runs and
tasks came to and executed, one for each that has one, in order and with its values; those of
the actions that are left come later, nobody else makes one, and the tasks are those that
were started, each with its own action. -/
theorem no_lost_update (setting : Setting σ) (id : String) {world : World σ} {moves : List Move}
    (hlisteners : world.listeners.Spare id)
    (hwrites : ∀ ops, .write ops ∈ moves → ∀ op ∈ ops, op.Spares id) :
    let crowd := (fresh world).play setting moves
    ((∀ edit ∈ crowd.edits id, edit.Gentle) →
        ComponentState.NoneLost (world.page.componentOrNew id) (crowd.edits id)
          (crowd.machine.world.page.componentOrNew id)) ∧
      ((∀ errand, .enter errand ∈ moves →
          ∀ kind ∈ Action.listKinds errand.actions, kind.IsGentle id) →
        ∀ edit ∈ crowd.edits id, edit.Gentle) ∧
      (∀ actor, crowd.errand? actor = none → crowd.actsOf actor = []) ∧
      (∀ actor errand, crowd.errand? actor = some errand → ∃ later done left,
        setting.engine.Course errand.depth errand.context errand.actions
            (crowd.actsOf actor ++ later) (done ++ left) ∧
          (crowd.IsOver actor → later = []) ∧
          (crowd.actsOf actor).filterMap (Act.edit? id) =
            done.filterMap (setting.engine.edit? id) ∧
          later.filterMap (Act.edit? id) = left.filterMap (setting.engine.edit? id)) ∧
      crowd.history.filterMap Deed.started? = (crowd.machine.tasks.map Task.job).zipIdx := by
  intro crowd
  have hrecorded : crowd.Recorded setting world := recorded_play setting world moves
  have hfollow : crowd.AllFollow setting := hrecorded.follows
  have hbehaves : crowd.Behaves (Act.Keeps id) :=
    behaves_play (setting.engine.covers_keeps id) world moves
  have hwrote (ops : List StoreOp) (hmem : .wrote ops ∈ crowd.history) :
      ∀ op ∈ ops, op.Spares id := by
    rcases write_mem_of_wrote_mem hmem with hfresh | hmove
    · exact absurd hfresh List.not_mem_nil
    · exact hwrites ops hmove
  obtain ⟨hkeeps, hedits⟩ := filterMap_edit?_writes hlisteners hbehaves.acts hwrote
  refine ⟨fun hgentle => ?_, fun hkinds => ?_, fun actor => hfollow.actsOf_eq_nil,
    fun actor errand => hfollow.exists_edits id, hrecorded.started⟩
  · rw [hrecorded.page, PageState.componentOrNew_applyAll hkeeps, hedits]
    exact ComponentState.noneLost_foldl hgentle _
  · have hgentle : crowd.Behaves (Act.IsGentle id) :=
      (behaves_fresh _ world).play (setting.engine.covers_isGentle id) (fun _ _ hkinds => hkinds)
        hkinds
    exact hgentle.gentle_of_mem_edits

/-- Two runs and a task that work on one component: a toggle behind a request, and
another one, a filter parameter from a task, the loading flag and the value
meanwhile. -/
def busyMoves : List Move :=
  let toggle : Action := { kind := .setVisibility "t" .toggle }
  [.enter { actions := [
      { kind := .callApi default .get none none, onSuccess := some [toggle] },
      { kind := .setLoading "t" false }] },
    .enter { actions := [
      { kind := .filterData "t" "page" (.str "2"), detached := true, delay := some 3 },
      { kind := .setLoading "t" true },
      toggle,
      { kind := .setValue "t" (.str "new") none }] },
    .turn 0, .tick 3, .turn 0, .tick 2, .goOn 0]

/-- The page of the moves above, at first. -/
def busyWorld : World Nat where
  page := default
  host := 0

/-- The runs and the task are over, and all six of their edits are there, with the values of
their actions: the two toggles undo each other, and the loading flag is the one of the first
run, which was set last. -/
theorem no_lost_update_of_busy :
    let crowd := (fresh busyWorld).play .counting busyMoves
    let before := busyWorld.page.componentOrNew "t"
    let after := crowd.machine.world.page.componentOrNew "t"
    (∀ actor ∈ [.thread 0, .thread 1, .task 0], crowd.IsOver actor) ∧
      crowd.edits "t" = [.merge { loading := some true }, .visibility .toggle,
        .assign (.str "new") none, .filter "page" (.str "2"), .visibility .toggle,
        .merge { loading := some false }] ∧
      after.isVisible = before.isVisible ∧ after.loading = some false ∧
      after.value = some (.str "new") ∧ after.param? "page" = some (.str "2") := by
  intro crowd before after
  have hlisteners : busyWorld.listeners.Spare "t" := by
    intro component listener hlistener
    cases hlistener
  have hwrites : ∀ ops, .write ops ∈ busyMoves → ∀ op ∈ ops, op.Spares "t" := by
    intro ops hmem
    simp [busyMoves] at hmem
  have hgentle : ∀ errand, .enter errand ∈ busyMoves →
      ∀ kind ∈ Action.listKinds errand.actions, kind.IsGentle "t" := by
    intro errand hmem
    simp only [busyMoves, List.mem_cons, Move.enter.injEq, reduceCtorEq, List.not_mem_nil,
      or_false] at hmem
    rcases hmem with rfl | rfl
    · simp [Action.listKinds, Action.kinds, Action.branchKinds, ActionKind.IsGentle]
    · simp [Action.listKinds, Action.kinds, Action.branchKinds, ActionKind.IsGentle]
  obtain ⟨hnone, hkinds, -⟩ := no_lost_update .counting "t" hlisteners hwrites
  have hkept := hnone (hkinds hgentle)
  have hedits : crowd.edits "t" = [.merge { loading := some true }, .visibility .toggle,
      .assign (.str "new") none, .filter "page" (.str "2"), .visibility .toggle,
      .merge { loading := some false }] := rfl
  change ComponentState.NoneLost before (crowd.edits "t") after at hkept
  rw [hedits] at hkept
  have hvisible : after.isVisible = !!before.isVisible := hkept.isVisible
  refine ⟨?_, hedits, hvisible.trans (Bool.not_not _), hkept.loading, hkept.value,
    hkept.param? "page"⟩
  simp only [List.forall_mem_cons]
  exact ⟨⟨_, rfl⟩, ⟨_, rfl⟩, ⟨_, rfl⟩, fun _ hmem => absurd hmem List.not_mem_nil⟩

end Crowd

end LivePage
