import Hashboard.CoreMap
import Hashboard.Work

/-!
# Events

A device reports what it learns from the boards as events. They go to a mailbox, which hands each one to
the receiver attached last; without a receiver that is still there, the event is dropped and counted.
-/

namespace Hashboard

inductive Event where
  | nonce (core : CoreId) (item : Item) (nonce : UInt32)
  | completed (core : CoreId) (hashes : UInt64)
  /-- A reply that fits no core or no item. -/
  | hardwareError (core : Option CoreId) (nonce : Option UInt32)
  /-- The device itself gave up. -/
  | error (device message : String)
  deriving DecidableEq, Repr

/-- The receivers attached so far, each with the events that wait for it, or none once it is gone. -/
structure Mailbox where
  receivers : Array (Option (Array Event))
  current : Option Nat
  /-- The events that reached no receiver. -/
  dropped : Nat

namespace Mailbox

def empty : Mailbox := ⟨#[], none, 0⟩

/-- Has a receiver, which may be gone, get all events from now on. -/
def set (m : Mailbox) (receiver : Nat) : Mailbox :=
  { m with current := some receiver }

/-- Attaches a new receiver, which gets all events from now on. -/
def attach (m : Mailbox) : Mailbox :=
  { m with receivers := m.receivers.push (some #[]) }.set m.receivers.size

/-- A receiver goes away, and with it the events that wait for it. -/
def detach (m : Mailbox) (receiver : Nat) : Mailbox :=
  { m with receivers := m.receivers.modify receiver fun _ => none }

/-- Whether the current receiver is still there. -/
def connected (m : Mailbox) : Bool :=
  m.current.any fun receiver => (m.receivers[receiver]?.join).isSome

/-- Hands an event to the current receiver, or counts it as dropped. -/
def put (m : Mailbox) (event : Event) : Mailbox :=
  if m.connected then
    { m with receivers :=
        m.receivers.modify (m.current.getD 0) fun waiting => waiting.map (·.push event) }
  else
    { m with dropped := m.dropped + 1 }

def putAll (m : Mailbox) (events : List Event) : Mailbox :=
  events.foldl put m

/-- The events that wait for a receiver; none once it is gone. -/
def waiting? (m : Mailbox) (receiver : Nat) : Option (List Event) :=
  (m.receivers[receiver]?.join).map Array.toList

/-- The receivers take the events that wait for them. -/
def collected (m : Mailbox) : Mailbox :=
  { m with receivers := m.receivers.map fun waiting => waiting.map fun _ => #[] }

end Mailbox

end Hashboard
