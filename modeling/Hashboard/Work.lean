import Hashboard.Bytes
import Hashboard.Wire

/-!
# Work

A piece of work is a midstate, a data block and the epoch it was made in. An item is a piece of work
that several holders share: two items are the same only if they are one and the same piece, so an item
carries a handle that tells apart pieces of equal content.
-/

namespace Hashboard

structure Work where
  midstate : Vector UInt8 Wire.midstateLength
  data : Vector UInt8 Wire.dataLength
  epoch : UInt64
  deriving DecidableEq, Repr

/-- The part of the data block that goes on the wire. -/
def Work.tail (w : Work) : List UInt8 :=
  Bytes.slice Wire.tailOffset Wire.tailLength w.data.toList

/-- A shared piece of work; pieces of equal content differ in their handle. -/
structure Item where
  handle : Nat
  work : Work
  deriving DecidableEq, Repr

def Item.epoch (item : Item) : UInt64 :=
  item.work.epoch

end Hashboard
