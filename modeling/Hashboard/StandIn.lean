import Hashboard.Feeder
import Hashboard.Simulator

/-!
# Stand-ins

Buses to try a device on where no boards are at hand, and a device to try the feeder on.
-/

namespace Hashboard

inductive Fault where
  | failing
  | crashing
  deriving DecidableEq, Repr

/-- A bus without boards. -/
inductive StandIn where
  /-- A bus that gives back what it gets, unless something is wrong with it. -/
  | loopback (name : String) (fault : Option Fault)
  | simulated (bus : Simulator)
  | dead

namespace StandIn

def noDevice : BusError :=
  .transfer (.other "no device")

def loop (fault : Option Fault) (tx : List UInt8) (rxLength : Nat) : Exchange :=
  match fault with
  | some .failing => .failed noDevice
  | some .crashing => .crashed
  | none =>
    if tx.length = rxLength then .received tx else .failed (.lengthMismatch tx.length rxLength)

instance : Bus StandIn where
  name
    | loopback name _ => name
    | simulated bus => Bus.name bus
    | dead => "dead"
  exchange
    | loopback name fault, tx, rxLength => (loop fault tx rxLength, loopback name fault)
    | simulated bus, tx, rxLength => (Bus.exchange bus tx rxLength).map id simulated
    | dead, _, _ => (.failed noDevice, dead)

def withFault (fault : Option Fault) : StandIn → StandIn
  | loopback name _ => loopback name fault
  | bus => bus

end StandIn

/-- A device that keeps what it is given, and counts what else is asked of it. -/
structure Shelf where
  capacity : Nat
  items : Array Item
  flushes : Nat
  polls : Nat

namespace Shelf

def empty (capacity : Nat) : Shelf :=
  ⟨capacity, #[], 0, 0⟩

instance : WorkDevice Shelf where
  enqueue s _ item :=
    if s.items.size < s.capacity then (true, { s with items := s.items.push item }) else (false, s)
  flushAll s _ _ := ({ s with items := #[], flushes := s.flushes + 1 }, [])
  pollAt s _ := { s with polls := s.polls + 1 }

end Shelf

end Hashboard
