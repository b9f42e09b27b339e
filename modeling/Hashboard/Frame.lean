import Hashboard.Work

/-!
# Request frames

A submission frame carries a work id, the midstate and the data tail, the latter two in reversed byte
order. A flush frame carries its command alone.
-/

namespace Hashboard.Frame

/-- The frame that submits `work` under `id`; only the low fifteen bits of the id are sent. -/
def submission (id : UInt16) (work : Work) : List UInt8 :=
  [Wire.commandByte Wire.submitRequest, 0] ++ Bytes.ofNat 2 (id &&& Wire.idMask).toNat
    ++ work.midstate.toList.reverse ++ work.tail.reverse

/-- The command byte of a flush, sent on its own when a device is brought up. -/
def bringUp : List UInt8 :=
  [Wire.commandByte Wire.flushRequest]

/-- The frame that empties the boards' queues. -/
def flush : List UInt8 :=
  bringUp ++ List.replicate (Wire.frameLength - 1) 0

def request (frame : List UInt8) : UInt8 :=
  frame.headD 0 >>> 4

structure Submission where
  id : UInt16
  midstate : List UInt8
  tail : List UInt8
  deriving DecidableEq, Repr

/-- Reads a submission from the front of `bytes`: none if they are too few or carry another request. -/
def decodeSubmission? (bytes : List UInt8) : Option Submission :=
  if bytes.length < Wire.frameLength ∨ request bytes ≠ Wire.submitRequest then
    none
  else
    some {
      id := Bytes.u16At 2 bytes &&& Wire.idMask
      midstate := (Bytes.slice 4 Wire.midstateLength bytes).reverse
      tail := (Bytes.slice (4 + Wire.midstateLength) Wire.tailLength bytes).reverse }

end Hashboard.Frame
