import Hashboard.Bus
import Hashboard.Frame
import Hashboard.Reply

/-!
# Simulated boards

A chain of boards without hardware. It takes submissions while its queue has room, finishes a fixed
number of items per transaction, oldest first, and reports a nonce for every few of them. The header of
its reply names the room there was before the submissions of the transaction.
-/

namespace Hashboard

/-- The boards that a simulator stands for, and how fast they work. -/
structure SimulatorSettings where
  /-- The asics and the number of cores of each. -/
  boards : List (UInt8 × UInt32)
  queueDepth : UInt16
  completionsPerPoll : Nat
  /-- Items whose id this divides bring a nonce. -/
  nonceEvery : UInt16
  deriving DecidableEq, Repr

namespace SimulatorSettings

/-- One full board with a queue of sixteen items. -/
def standard : SimulatorSettings where
  boards := [(0, 192)]
  queueDepth := 16
  completionsPerPoll := 1
  nonceEvery := 4

def coreCount (s : SimulatorSettings) : Nat :=
  s.boards.foldr (fun (_, cores) count => cores.toNat + count) 0

/-- Whether there are more cores than addresses can tell apart. -/
def overcrowded (s : SimulatorSettings) : Bool :=
  UInt32.size ≤ s.coreCount

/-- Counts `slot` off along the boards. -/
def locate : List (UInt8 × UInt32) → (slot : UInt32) → CoreAddress
  | [], _ => ⟨0, 0⟩
  | (asic, cores) :: rest, slot => if slot < cores then ⟨asic, slot⟩ else locate rest (slot - cores)

/-- The core that works on the item with this id: the ids go round all cores. -/
def addressFor (s : SimulatorSettings) (id : UInt16) : CoreAddress :=
  locate s.boards (UInt32.ofNat (id.toNat % max s.coreCount 1))

/-- The records for a finished item: a nonce now and then, and the end of its search. -/
def repliesFor (s : SimulatorSettings) (id : UInt16) : List ReplyRecord :=
  let address := s.addressFor id
  let found := if id % max s.nonceEvery 1 = 0 then
      [⟨.nonce, address, id, id.toUInt32 * 0x9e3779b9⟩]
    else
      []
  found ++ [⟨.done, address, id, 0⟩]

end SimulatorSettings

/-- Simulated boards and the ids of the items they hold, oldest first. -/
structure Simulator where
  settings : SimulatorSettings
  pending : List UInt16
  deriving DecidableEq, Repr

/-- What became of the submissions of one transaction. -/
structure Admission where
  /-- The ids held before the transaction and not flushed by it. -/
  held : List UInt16
  /-- The ids taken since the last flush, newest first. -/
  taken : List UInt16
  room : Nat
  offered : Nat
  refused : Bool
  deriving DecidableEq, Repr

namespace Admission

/-- The ids on the boards, oldest first. -/
def pending (a : Admission) : List UInt16 :=
  a.held ++ a.taken.reverse

/-- A flush frame empties the boards, but makes no room within the transaction. -/
def flush (a : Admission) : Admission :=
  { a with held := [], taken := [] }

def offer (a : Admission) (id : UInt16) : Admission :=
  if a.room = 0 then
    { a with offered := a.offered + 1, refused := true }
  else
    { a with offered := a.offered + 1, taken := id :: a.taken, room := a.room - 1 }

/-- Goes through the frames of a transaction up to the first that is neither a flush nor a whole
submission. -/
def walk (a : Admission) : List (List UInt8) → Admission
  | [] => a
  | frame :: rest =>
    if Frame.request frame = Wire.flushRequest then
      walk a.flush rest
    else
      match Frame.decodeSubmission? frame with
      | some submission => walk (a.offer submission.id) rest
      | none => a

end Admission

namespace Simulator

def start (settings : SimulatorSettings) : Simulator :=
  ⟨settings, []⟩

/-- The frames of a transmit buffer; the last may be cut short. -/
def frames (tx : List UInt8) : List (List UInt8) :=
  Bytes.pieces Wire.frameLength ((tx.length + (Wire.frameLength - 1)) / Wire.frameLength) tx

def admission (s : Simulator) (tx : List UInt8) : Admission :=
  let room := s.settings.queueDepth.toNat - s.pending.length
  Admission.walk ⟨s.pending, [], room, 0, false⟩ (frames tx)

def replies (s : Simulator) : List ReplyRecord :=
  (s.pending.take s.settings.completionsPerPoll).flatMap s.settings.repliesFor

/-- The boards without the items that finish in this transaction. -/
def afterCompletions (s : Simulator) : Simulator :=
  { s with pending := s.pending.drop s.settings.completionsPerPoll }

/-- The header of the reply: the room there was, if anything was submitted. -/
def header (s : Simulator) (a : Admission) : ReplyHeader :=
  let room := s.settings.queueDepth.toNat - s.pending.length
  ⟨a.refused, if a.offered = 0 then 0 else UInt16.ofNat (min room 65535)⟩

/-- Whether the boards cannot tell which core finishes the next item: the number of all their cores is taken
with a checked sum of thirty-two bits. -/
def misplaced (s : Simulator) : Bool :=
  s.settings.overcrowded ∧ s.settings.completionsPerPoll ≠ 0 ∧ !s.pending.isEmpty

/-- One transaction: items finish first, then the submissions are gone through. Boards with too many
cores crash when the first item finishes. -/
def exchange (s : Simulator) (tx : List UInt8) (rxLength : Nat) : Exchange × Simulator :=
  if tx.length ≠ rxLength then
    (.failed (.lengthMismatch tx.length rxLength), s)
  else if s.misplaced then
    (.crashed, { s with pending := s.pending.drop 1 })
  else
    let rest := s.afterCompletions
    let admission := rest.admission tx
    (.received (Reply.write rxLength (rest.header admission) s.replies),
      { rest with pending := admission.pending })

instance : Bus Simulator where
  name _ := "sim"
  exchange := exchange

end Simulator

end Hashboard
