import Hashboard.Bus
import Hashboard.Wire

/-!
# Transfer buffers

A transmit buffer of fixed length is filled in place, chunk by chunk, up to a mark; a chunk that no longer
fits is refused. For the exchange the rest of the buffer is filled with no-op bytes.

The operations with a question mark are none if the mark or a write is outside the buffer. Buffers that start
empty never come to that, and the others take it for granted.
-/

namespace Hashboard

structure Buffers where
  /-- The transmit buffer at its full length. -/
  bytes : Array UInt8
  /-- The mark: how many of the bytes are filled. -/
  filled : Nat
  /-- What the last exchange brought. -/
  rx : List UInt8

namespace Buffers

/-! ## Writing in place -/

/-- Writes a chunk over the bytes from `start` on; what is behind the end is left out. -/
def overwrite (bytes : Array UInt8) : (start : Nat) → List UInt8 → Array UInt8
  | _, [] => bytes
  | start, byte :: chunk => overwrite (bytes.setIfInBounds start byte) (start + 1) chunk

/-- Writes a chunk over the bytes from `start` on: none if there are not as many. -/
def overwrite? (bytes : Array UInt8) (start : Nat) (chunk : List UInt8) : Option (Array UInt8) :=
  if start + chunk.length ≤ bytes.size then some (overwrite bytes start chunk) else none

/-! ## Operations -/

def empty (length : Nat) : Buffers :=
  ⟨Array.replicate length Wire.nop, 0, List.replicate length 0⟩

def length (b : Buffers) : Nat :=
  b.bytes.size

/-- How many bytes there are behind the mark. -/
def remaining? (b : Buffers) : Option Nat :=
  if b.filled ≤ b.length then some (b.length - b.filled) else none

def clear (b : Buffers) : Buffers :=
  empty b.length

/-- Emits a chunk if it fits as a whole; tells whether it does. -/
def emit? (b : Buffers) (chunk : List UInt8) : Option (Bool × Buffers) :=
  b.remaining?.bind fun room =>
    if room < chunk.length then
      some (false, b)
    else
      (overwrite? b.bytes b.filled chunk).map fun bytes =>
        (true, { b with bytes, filled := b.filled + chunk.length })

/-- Fills the rest of the transmit buffer with no-op bytes. -/
def pad? (b : Buffers) : Option Buffers :=
  b.remaining?.bind fun room =>
    (overwrite? b.bytes b.filled (List.replicate room Wire.nop)).map fun bytes =>
      { b with bytes, filled := b.length }

/-- Sends the padded transmit buffer; the bus may leave anything in the receive buffer, also when it fails or
crashes. -/
def transact? {τ : Type} [Transport τ] (b : Buffers) (bus : τ) : Option (BusAnswer × Buffers × τ) :=
  b.pad?.map fun b =>
    let (answer, bus) := Transport.transact bus b.bytes.toList b.rx
    (answer, { b with rx := answer.rx }, bus)

/-! ## Operations that do not fail -/

-- closed to unfolding, as a computation would run through the buffer byte by byte
@[irreducible] def emit (b : Buffers) (chunk : List UInt8) : Bool × Buffers :=
  (b.emit? chunk).getD (false, b)

def pad (b : Buffers) : Buffers :=
  b.pad?.getD b

/-- What an exchange sends: the transmit buffer at its full length. -/
def tx (b : Buffers) : List UInt8 :=
  b.pad.bytes.toList

end Buffers

end Hashboard
