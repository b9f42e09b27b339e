import Hashboard.Control

/-!
# A simulated control bus

A control bus described by a table of slaves. It keeps a list of the requests made to it.
-/

namespace Hashboard

structure SimulatedSlave where
  address : UInt16
  /-- What its registers hold, from register 0 on. -/
  registers : List UInt8
  /-- The system error that selecting it brings. -/
  selectError : Option Int32
  /-- The registers that cannot be read. -/
  broken : List UInt8
  /-- The word that every register gives. -/
  word : Option UInt16
  deriving DecidableEq, Repr

inductive ControlRequest where
  | select (slave : UInt16)
  | block (register : UInt8) (length : Nat)
  | word (register : UInt8)
  deriving DecidableEq, Repr

/-- A control bus with a table of slaves. -/
structure SimulatedControl where
  slaves : List SimulatedSlave
  selected : Option SimulatedSlave
  requests : Array ControlRequest
  deriving Repr

namespace SimulatedControl

def start (slaves : List SimulatedSlave) : SimulatedControl :=
  ⟨slaves, none, #[]⟩

def log (c : SimulatedControl) (request : ControlRequest) : SimulatedControl :=
  { c with requests := c.requests.push request }

/-- Selects a slave of the table; if that fails, the one selected before stays. -/
def select (c : SimulatedControl) (slave : UInt16) : Except ControlError Unit × SimulatedControl :=
  let c := c.log (.select slave)
  match c.slaves.find? fun s => s.address == slave with
  | none => (.error (.selectFailed slave .noDevice), c)
  | some s =>
    match s.selectError with
    | some number => (.error (.selectFailed slave (.os number)), c)
    | none => (.ok (), { c with selected := some s })

/-- Reads the selected slave's registers; too few of them fill only the front of the buffer. -/
def readBlock (c : SimulatedControl) (register : UInt8) (buffer : List UInt8) :
    Except ControlError Unit × List UInt8 × SimulatedControl :=
  let c := c.log (.block register buffer.length)
  match c.selected with
  | none => (.error (.readFailed register .inputOutput), buffer, c)
  | some s =>
    if s.broken.contains register then
      (.error (.readFailed register .inputOutput), buffer, c)
    else
      let bytes := Bytes.slice register.toNat buffer.length s.registers
      let buffer := bytes ++ buffer.drop bytes.length
      if bytes.length < buffer.length then
        (.error (.shortBlock buffer.length bytes.length), buffer, c)
      else
        (.ok (), buffer, c)

/-- The buffer keeps its size, however much of it is filled. -/
theorem readBlock_length (c : SimulatedControl) (register : UInt8) (buffer : List UInt8) :
    (c.readBlock register buffer).2.1.length = buffer.length := by
  unfold readBlock
  simp only [log]
  split
  · rfl
  · rename_i s _
    have hslice : (Bytes.slice register.toNat buffer.length s.registers).length ≤ buffer.length :=
      List.length_take_le _ _
    split
    · rfl
    · split <;> rw [List.length_append, List.length_drop] <;> omega

def readWord (c : SimulatedControl) (register : UInt8) :
    Except ControlError UInt16 × SimulatedControl :=
  let c := c.log (.word register)
  match c.selected.bind SimulatedSlave.word with
  | none => (.error (.readFailed register .inputOutput), c)
  | some word => (.ok word, c)

instance : ControlBus SimulatedControl where
  select := select
  readBlock := readBlock
  readWord := readWord
  readBlock_length := readBlock_length

end SimulatedControl

end Hashboard
