import LivePage.Proofs.Schedule.Updates

/-!
# Writes of runs

Where the changes of a page come from.  Every change was made by an action of a list
that somebody asked for or of a branch below it, by a listener, or by somebody else; so
whatever is true of all those changes is true of the changes that make the page at any
moment of any schedule.
-/

namespace LivePage

/-- The act changes the page only as a predicate says, and starts only tasks with
actions of some kinds. -/
def Act.WritesOnly (k : ActionKind → Prop) (q : StoreOp → Prop) : Act → Prop
  | performed (.store op) => q op
  | started job _ => ∀ kind ∈ job.action.kinds, k kind
  | _ => True

theorem Engine.covers_writesOnly {engine : Engine} {k : ActionKind → Prop} {q : StoreOp → Prop}
    (heffects : ∀ kind, k kind → ∀ context op, .store op ∈ engine.effects context kind → q op) :
    engine.Covers k (Act.WritesOnly k q) where
  paused := fun _ => trivial
  asked := fun _ _ => trivial
  performed := fun kind hkind context effect heffect => by
    cases effect with
    | store op => exact heffects kind hkind context op heffect
    | refresh component | call call => trivial
  started := fun _ hkinds _ => hkinds

/-- All that listeners write satisfies a predicate. -/
def Listeners.WriteOnly (listeners : Listeners Listener) (q : StoreOp → Prop) : Prop :=
  ∀ component listener, listeners.listener? component = some listener →
    ∀ op ∈ listener.writes, q op

theorem Act.WritesOnly.writes {k : ActionKind → Prop} {q : StoreOp → Prop}
    {listeners : Listeners Listener} {act : Act} (hact : act.WritesOnly k q)
    (hlisteners : listeners.WriteOnly q) : ∀ op ∈ act.writes listeners, q op := by
  intro op hop
  cases act with
  | performed effect =>
      cases effect with
      | store own =>
          rw [List.mem_singleton.1 hop]
          exact hact
      | refresh component =>
          rw [Act.writes, Effect.writes] at hop
          cases hlistener : listeners.listener? component with
          | none => simp [hlistener] at hop
          | some listener =>
              rw [hlistener] at hop
              exact hlisteners component listener hlistener op hop
      | call call => exact absurd hop List.not_mem_nil
  | _ => exact absurd hop List.not_mem_nil

/-- The kinds of all actions of the run that a move begins. -/
def Move.kinds : Move → List ActionKind
  | enter errand => Action.listKinds errand.actions
  | _ => []

namespace Crowd

variable {σ : Type}

/-- The changes that make the page of a crowd what it is, in order. -/
def writes (crowd : Crowd σ) (listeners : Listeners Listener) : List StoreOp :=
  crowd.history.flatMap (Deed.writes listeners)

theorem page_play (setting : Setting σ) (world : World σ) (moves : List Move) :
    ((fresh world).play setting moves).machine.world.page =
      world.page.applyAll (((fresh world).play setting moves).writes world.listeners) :=
  (recorded_play setting world moves).page

/-- What is true of the changes that actions make, that listeners make and that others
make is true of all changes of a page. -/
theorem forall_writes (setting : Setting σ) {world : World σ} {moves : List Move}
    {q : StoreOp → Prop}
    (heffects : ∀ kind ∈ moves.flatMap Move.kinds, ∀ context op,
      .store op ∈ setting.engine.effects context kind → q op)
    (hlisteners : world.listeners.WriteOnly q)
    (hwrites : ∀ ops, .write ops ∈ moves → ∀ op ∈ ops, q op) :
    ∀ op ∈ ((fresh world).play setting moves).writes world.listeners, q op := by
  have hbehaves : ((fresh world).play setting moves).Behaves
      (Act.WritesOnly (· ∈ moves.flatMap Move.kinds) q) := by
    apply (behaves_fresh _ world).play (Engine.covers_writesOnly heffects) fun _ _ hkinds => hkinds
    intro errand hmem kind hkind
    exact List.mem_flatMap.2 ⟨.enter errand, hmem, hkind⟩
  intro op hop
  obtain ⟨deed, hdeed, hop⟩ := List.mem_flatMap.1 hop
  cases deed with
  | acted actor act => exact (hbehaves.acts actor act hdeed).writes hlisteners op hop
  | wrote ops =>
      rcases write_mem_of_wrote_mem hdeed with hfresh | hmove
      · exact absurd hfresh List.not_mem_nil
      · exact hwrites ops hmove op hop

end Crowd

end LivePage
