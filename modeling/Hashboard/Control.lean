import Hashboard.Bytes
import Hashboard.Cause

/-!
# The control bus

Beside the data bus the boards hang on a control bus, where a slave is selected by its address and then
read register by register. Every request may fail, and a failing read may still have written a part of
the buffer.
-/

namespace Hashboard

inductive ControlError where
  | cannotOpen (path : String) (cause : Cause)
  | selectFailed (slave : UInt16) (cause : Cause)
  | readFailed (register : UInt8) (cause : Cause)
  | shortBlock (requested returned : Nat)
  deriving DecidableEq, Repr

namespace ControlError

/-- How messages show an address or a register. -/
def hexText (n : Nat) : String :=
  "0x" ++ Bytes.hexNat 2 n

def message : ControlError → String
  | cannotOpen path _ => s!"failed to open {path}"
  | selectFailed slave _ => "failed to select slave " ++ hexText slave.toNat
  | readFailed register _ => "read of register " ++ hexText register.toNat ++ " failed"
  | shortBlock requested returned => s!"block read of {requested} bytes returned {returned}"

def cause? : ControlError → Option Cause
  | cannotOpen _ cause | selectFailed _ cause | readFailed _ cause => some cause
  | shortBlock .. => none

def fullMessage (e : ControlError) : String :=
  e.cause?.elim e.message fun cause => s!"{e.message}: {cause.message}"

end ControlError

/-- Something that answers requests on a control bus and changes its state by them. -/
class ControlBus (κ : Type) where
  select : κ → (slave : UInt16) → Except ControlError Unit × κ
  /-- Reads into a buffer, as many bytes as it holds; returns the buffer as it is afterwards. -/
  readBlock : κ → (register : UInt8) → (buffer : List UInt8) →
    Except ControlError Unit × List UInt8 × κ
  readWord : κ → (register : UInt8) → Except ControlError UInt16 × κ
  readBlock_length : ∀ (control : κ) (register : UInt8) (buffer : List UInt8),
    (readBlock control register buffer).2.1.length = buffer.length

end Hashboard
