import LivePage.Modal.Event

/-!
# Modal bus

Modal events go to every host that listens at the time.  The bus keeps the most
recent events, as many as its capacity says; a host that falls further behind
learns how many events it lost and goes on with the oldest one that is kept.
-/

namespace LivePage

/-- A bus and the places of its hosts. -/
structure ModalBus where
  capacity : Nat
  /-- How many events were published while anybody listened. -/
  published : Nat := 0
  /-- The most recent events, the oldest first. -/
  recent : List ModalEvent := []
  /-- The number of the next event for each host. -/
  hosts : Dict Nat := ∅
deriving Inhabited

/-- What a host receives. -/
inductive ModalReceipt where
  | event (event : ModalEvent)
  | nothing
  /-- Some events were lost. -/
  | lagged (lost : Nat)
deriving DecidableEq, Repr, Inhabited

namespace ModalBus

def usualCapacity : Nat := 64

/-- A bus of at least some capacity, which is made a power of two. -/
def ofCapacity (capacity : Nat) : ModalBus :=
  { capacity := (max capacity 1).nextPowerOfTwo }

/-- Publishes an event; where nobody listens it is lost. -/
def publish (bus : ModalBus) (event : ModalEvent) : ModalBus :=
  if bus.hosts.isEmpty then bus
  else
    let recent := bus.recent ++ [event]
    { bus with published := bus.published + 1, recent := recent.drop (recent.length - bus.capacity) }

/-- A host begins to listen, or begins anew: it gets what is published from now
on. -/
def subscribe (bus : ModalBus) (host : String) : ModalBus :=
  { bus with hosts := bus.hosts.insert host bus.published }

def listens (bus : ModalBus) (host : String) : Bool :=
  bus.hosts.contains host

/-- A host stops listening. -/
def leave (bus : ModalBus) (host : String) : ModalBus :=
  { bus with hosts := bus.hosts.erase host }

/-- The number of the oldest event that is kept. -/
def oldest (bus : ModalBus) : Nat :=
  bus.published - bus.recent.length

/-- What is next for a host; nothing at all for one that does not listen. -/
def receive (bus : ModalBus) (host : String) : Option (ModalReceipt × ModalBus) :=
  (bus.hosts.get? host).map fun next =>
    if next < bus.oldest then
      (.lagged (bus.oldest - next), { bus with hosts := bus.hosts.insert host bus.oldest })
    else
      match bus.recent[next - bus.oldest]? with
      | some event => (.event event, { bus with hosts := bus.hosts.insert host (next + 1) })
      | none => (.nothing, bus)

/-- Receives until there is nothing more, at most `fuel` times. -/
def drainWithin (host : String) : Nat → ModalBus → List ModalReceipt × ModalBus
  | 0, bus => ([], bus)
  | fuel + 1, bus =>
      match bus.receive host with
      | none => ([], bus)
      | some (.nothing, bus) => ([], bus)
      | some (receipt, bus) =>
          let (receipts, bus) := drainWithin host fuel bus
          (receipt :: receipts, bus)

/-- Everything there is for a host: at most one loss and the events kept. -/
def drain (bus : ModalBus) (host : String) : List ModalReceipt × ModalBus :=
  drainWithin host (bus.recent.length + 1) bus

/-- A host got everything that there is for it. -/
def CaughtUp (bus : ModalBus) (host : String) : Prop :=
  bus.receive host = none ∨ bus.receive host = some (.nothing, bus)

/-- How much there is for a host whose next event has a number. -/
def due (bus : ModalBus) (next : Nat) : Nat :=
  if next < bus.oldest then bus.recent.length + 1 else bus.recent.length - (next - bus.oldest)

theorem due_moved (bus : ModalBus) (host : String) (place next : Nat) :
    { bus with hosts := bus.hosts.insert host place }.due next = bus.due next := rfl

theorem caughtUp_drainWithin (host : String) {fuel : Nat} {bus : ModalBus}
    (hfuel : ∀ next, bus.hosts.get? host = some next → bus.due next ≤ fuel) :
    (drainWithin host fuel bus).2.CaughtUp host := by
  induction fuel generalizing bus with
  | zero =>
      rw [drainWithin, CaughtUp, receive]
      cases hnext : bus.hosts.get? host with
      | none => exact .inl rfl
      | some next =>
          -- nothing is due, so the next event was not published yet
          have hdue := hfuel next hnext
          rw [due] at hdue
          split at hdue
          · omega
          · next hkept =>
              have hnone : bus.recent[next - bus.oldest]? = none :=
                List.getElem?_eq_none (by omega)
              right
              simp [hkept, hnone]
  | succ fuel ih =>
      rw [drainWithin]
      cases hreceive : bus.receive host with
      | none => exact .inl hreceive
      | some received =>
          obtain ⟨receipt, after⟩ := received
          obtain ⟨next, hnext, hstep⟩ := Option.map_eq_some_iff.1 hreceive
          have hdue := hfuel next hnext
          rw [due] at hdue
          split at hstep
          · next hlost =>
              obtain ⟨rfl, rfl⟩ := Prod.mk.inj hstep
              refine ih fun later hlater => ?_
              rw [Dict.get?_insert, if_pos rfl] at hlater
              rw [due_moved, ← Option.some.inj hlater, due, if_neg (Nat.lt_irrefl _)]
              rw [if_pos hlost] at hdue
              omega
          · next hkept =>
              rw [if_neg hkept] at hdue
              split at hstep
              · next event hevent =>
                  obtain ⟨rfl, rfl⟩ := Prod.mk.inj hstep
                  have hlength := (List.getElem?_eq_some_iff.1 hevent).1
                  refine ih fun later hlater => ?_
                  rw [Dict.get?_insert, if_pos rfl] at hlater
                  rw [due_moved, ← Option.some.inj hlater, due, if_neg (by omega)]
                  omega
              · obtain ⟨rfl, rfl⟩ := Prod.mk.inj hstep
                exact .inr hreceive

/-- A host that drained the bus has nothing left to receive. -/
theorem drain_drain (bus : ModalBus) (host : String) :
    (bus.drain host).2.drain host = ([], (bus.drain host).2) := by
  have hcaught : (bus.drain host).2.CaughtUp host := by
    refine caughtUp_drainWithin host fun next _ => ?_
    rw [due]
    split <;> omega
  generalize (bus.drain host).2 = after at hcaught
  rw [drain, drainWithin]
  rcases hcaught with hnone | hnothing
  · rw [hnone]
  · rw [hnothing]

end ModalBus

end LivePage
