import Hashboard.Bus
import Hashboard.Control
import Hashboard.Path

/-!
# Adapters of the machine

The machine is taken to have no adapters. What else can be opened refuses every request.
-/

namespace Hashboard

/-- An opened path that refuses every request. -/
structure Adapter where
  path : String
  refusal : Cause
  deriving DecidableEq, Repr

namespace Adapter

def open? (path : String) : Except Cause Adapter :=
  (Path.open? path).map fun node => ⟨path, node.refusal⟩

def openControl (path : String) : Except ControlError Adapter :=
  (open? path).mapError (.cannotOpen path)

instance : ControlBus Adapter where
  select a slave := (.error (.selectFailed slave a.refusal), a)
  readBlock a register buffer := (.error (.readFailed register a.refusal), buffer, a)
  readWord a register := (.error (.readFailed register a.refusal), a)
  readBlock_length _ _ _ := rfl

/-- Why no data bus can be opened: a path is missing, or refuses to be set up. -/
def openError (path : String) : BusError :=
  match open? path with
  | .error cause => .cannotOpen path cause
  | .ok a => .cannotConfigure "mode" path a.refusal

end Adapter

end Hashboard
