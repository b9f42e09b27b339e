import Hashboard.Cause

/-!
# Buses

A bus exchanges a transmit buffer for a receive buffer of a given length. The exchange may fail with an
error, and the bus may crash in the middle of it.
-/

namespace Hashboard

inductive BusError where
  | cannotOpen (path : String) (cause : Cause)
  | cannotConfigure (what path : String) (cause : Cause)
  | transfer (cause : Cause)
  | lengthMismatch (tx rx : Nat)
  /-- A crash during an earlier exchange left the bus unusable. -/
  | poisoned
  deriving DecidableEq, Repr

namespace BusError

def message : BusError → String
  | cannotOpen path _ => s!"failed to open {path}"
  | cannotConfigure what path _ => s!"failed to set {what} on {path}"
  | transfer _ => "transfer failed"
  | lengthMismatch tx rx => s!"buffer length mismatch (tx={tx}, rx={rx})"
  | poisoned => "bus lock poisoned"

def cause? : BusError → Option Cause
  | cannotOpen _ cause | cannotConfigure _ _ cause | transfer cause => some cause
  | lengthMismatch _ _ | poisoned => none

def fullMessage (e : BusError) : String :=
  e.cause?.elim e.message fun cause => s!"{e.message}: {cause.message}"

end BusError

inductive Exchange where
  | received (rx : List UInt8)
  | failed (error : BusError)
  /-- The bus crashed; it may not be used again. -/
  | crashed
  deriving DecidableEq, Repr

/-- Something that exchanges buffers and changes its state by it. -/
class Bus (β : Type) where
  name : β → String
  /-- Sends `tx` and asks for `rxLength` bytes. -/
  exchange : β → (tx : List UInt8) → (rxLength : Nat) → Exchange × β

/-! ## Transactions -/

/-- How a transaction ends, and what the receive buffer holds then. -/
structure BusAnswer where
  /-- None after a crash. -/
  result : Option (Except BusError Unit)
  rx : List UInt8

namespace BusAnswer

def crashed (a : BusAnswer) : Bool :=
  a.result.isNone

def ofExchange (rx : List UInt8) : Exchange → BusAnswer
  | .received rx => ⟨some (.ok ()), rx⟩
  | .failed error => ⟨some (.error error), rx⟩
  | .crashed => ⟨none, rx⟩

def exchange (a : BusAnswer) : Exchange :=
  match a.result with
  | some (.ok ()) => .received a.rx
  | some (.error error) => .failed error
  | none => .crashed

end BusAnswer

/-- Something that sends a transmit buffer and writes what comes back into a receive buffer, whatever may be
left of it when it fails. -/
class Transport (τ : Type) where
  name : τ → String
  transact : τ → (tx rx : List UInt8) → BusAnswer × τ

/-- A bus that writes nothing when it fails. -/
instance {β : Type} [Bus β] : Transport β where
  name := Bus.name
  transact bus tx rx :=
    let (outcome, bus) := Bus.exchange bus tx rx.length
    (.ofExchange rx outcome, bus)

end Hashboard
