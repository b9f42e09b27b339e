import Hashboard.Bus

/-!
# Controllers shared by several buses

The buses behind one controller take turns: a transaction holds the lock of the controller from beginning to
end. If a bus crashes during its turn, the lock is poisoned and the controller serves nobody any more; an
ordinary error does it no harm.
-/

namespace Hashboard

/-! ## Controllers -/

/-- A controller. Its clones have the same lock, and no other controller has it. -/
structure BusController where
  name : String
  lock : Nat
  deriving DecidableEq, Repr

/-- A bus attached to a controller. -/
structure SharedBus (τ : Type) where
  name : String
  controller : BusController
  bus : τ

variable {τ : Type} [Transport τ]

def BusController.attach (c : BusController) (bus : τ) : SharedBus τ where
  name := s!"{c.name}/{Transport.name bus}"
  controller := c
  bus := bus

/-- A transaction through the controller, whose lock may be poisoned; tells whether it is poisoned then. -/
def SharedBus.transact (b : SharedBus τ) (poisoned : Bool) (tx rx : List UInt8) :
    BusAnswer × Bool × SharedBus τ :=
  if poisoned then
    (⟨some (.error .poisoned), rx⟩, true, b)
  else
    let (answer, bus) := Transport.transact b.bus tx rx
    (answer, answer.crashed, { b with bus })

/-! ## One controller with its buses -/

/-- A controller and the buses attached to it, in the order of attachment. -/
structure SharedController (β : Type) where
  name : String
  poisoned : Bool
  buses : Array β

namespace SharedController

variable {β : Type} [Bus β]

def start (name : String) : SharedController β :=
  ⟨name, false, #[]⟩

def controller (c : SharedController β) : BusController :=
  ⟨c.name, 0⟩

def attach (c : SharedController β) (bus : β) : SharedController β :=
  { c with buses := c.buses.push bus }

def busName (c : SharedController β) (bus : β) : String :=
  (c.controller.attach bus).name

/-- A transaction with the bus at this place, none if there is no such bus. -/
def exchange (c : SharedController β) (place : Nat) (tx : List UInt8) (rxLength : Nat) :
    Option (Exchange × SharedController β) :=
  c.buses[place]?.map fun bus =>
    let rx := List.replicate rxLength 0
    let (answer, poisoned, shared) := (c.controller.attach bus).transact c.poisoned tx rx
    (answer.exchange, { c with poisoned, buses := c.buses.set! place shared.bus })

end SharedController

end Hashboard
