import Hashboard.Buffers
import Hashboard.Dispatch
import Hashboard.Frame
import Hashboard.WorkQueue

/-!
# The poll cycle

A cycle moves items from the queue of a device to its boards. It looks at the queue twice: `begin` takes
what is to be sent, then the bus exchanges the buffers, and `finish` settles what the boards accepted.
Between the two the queue may change at will.

An item is sent under the id that the table will give it if the boards accept all items in front of it,
and that is what they do: they accept a front part of what was sent.
-/

namespace Hashboard

/-- A value behind a lock. A crash of a holder poisons the lock for good. -/
inductive Guarded (α : Type) where
  | sound (value : α)
  | poisoned

structure Poller where
  device : String
  cores : CoreMap
  /-- The pause between polls, in microseconds. -/
  interval : Nat
  table : InFlight

/-- A cycle whose buffers are on the bus. -/
structure PollCycle where
  flushing : Bool
  sent : List Item
  buffers : Buffers

structure PollOutcome where
  /-- The pause before the next cycle, in microseconds. -/
  delay : Nat
  transportOk : Bool
  flushed : Bool
  sent : Nat
  accepted : UInt16
  overflow : Bool
  dispatch : DispatchSummary
  deriving DecidableEq, Repr

/-- When the next cycle is due if this one ends now: none if the clock cannot show it. -/
def PollOutcome.nextPoll? (o : PollOutcome) (now : Instant) : Option Instant :=
  now.after? (.ofMicros o.delay)

inductive PollError where
  | queuePoisoned (device : String)
  | bringUpFailed (device : String) (error : BusError)
  deriving DecidableEq, Repr

def PollError.message : PollError → String
  | queuePoisoned device => s!"{device}: work queue lock poisoned"
  | bringUpFailed device error => s!"{device}: bring-up flush failed: {error.message}"

inductive PollNotice where
  | bringingUp (device : String)
  | abandoning (device : String)
  | transferFailed (device : String) (error : BusError)
  | overflow (device : String)
  | dispatch (notice : DispatchNotice)
  | dropped (device : String) (count : Nat)
  | receipt (device : String) (accepted : UInt16) (sent capacity inFlight : Nat)
  | reissued (device : String) (id : UInt16)
  deriving DecidableEq, Repr

def PollNotice.record : PollNotice → Log.Record
  | bringingUp device =>
    ⟨.debug, "POLL", s!"{device}: issuing flush command to clear out device queues"⟩
  | abandoning device => ⟨.info, "POLL", s!"{device}: abandoning stale searches to restart"⟩
  | transferFailed device error => ⟨.debug, "POLL", s!"{device}: transfer failed: {error.message}"⟩
  | overflow device => ⟨.debug, "POLL", s!"{device}: receive buffer overflow reported"⟩
  | dispatch notice => notice.record
  | dropped device count => ⟨.debug, "POLL", s!"{device}: dropped {count} flushed searches"⟩
  | receipt device accepted sent capacity inFlight =>
    let bounds := s!"(max={capacity}, in flight={inFlight})"
    ⟨.debug, "POLL", s!"{device}: {accepted}/{sent} jobs accepted to queue {bounds}"⟩
  | reissued device id =>
    let shown := Bytes.hexNat 4 id.toNat
    ⟨.warn, "POLL", s!"{device}: work id 0x{shown} reissued while still in flight"⟩

/-- The state after the end of a cycle, and what came of it. -/
structure PollFinished where
  poller : Poller
  queue : Guarded WorkQueue
  events : List Event
  notices : List PollNotice
  result : Except PollError PollOutcome

namespace Poller

def start (device : String) (cores : CoreMap) (interval : Nat) : Poller :=
  ⟨device, cores, interval, .empty⟩

/-! ## Bring-up -/

/-- The buffers of the transaction that brings the boards up. -/
def bringUpBuffers : Buffers :=
  ((Buffers.empty Wire.transactionLength).emit Frame.bringUp).2

/-- Whether the boards came up, by the end of the bring-up transaction. If so, a poll is asked for at
once. A crash of the bus counts as none of both. -/
def bringUp (device : String) (queue : Guarded WorkQueue) (now : Instant) :
    Exchange → Option (Except PollError Unit × Guarded WorkQueue)
  | .crashed => none
  | .failed error => some (.error (.bringUpFailed device error), queue)
  | .received _ =>
    match queue with
    | .poisoned => some (.error (.queuePoisoned device), .poisoned)
    | .sound q => some (.ok (), .sound (q.requestPoll now))

/-! ## Beginning of a cycle -/

/-- Emits the submissions of the items, under the ids from `place` on, until one does not fit; returns
the items that did. -/
def pack (table : InFlight) : (place : Nat) → List Item → Buffers → List Item × Buffers
  | _, [], buffers => ([], buffers)
  | place, item :: rest, buffers =>
    match buffers.emit (Frame.submission (table.idAt place) item.work) with
    | (false, _) => ([], buffers)
    | (true, buffers) =>
      let (sent, buffers) := pack table (place + 1) rest buffers
      (item :: sent, buffers)

/-- What `begin` does to the queue: requests that are due are settled, stale items dropped, and the
order for a flush is taken. -/
def beginQueue (queue : WorkQueue) (clock : EpochClock) (now : Instant) : WorkQueue :=
  ((queue.settlePollRequest now).prune clock).disarmFlush

/-- Begins a cycle: the waiting items go into the transmit buffer, behind a flush frame if one is due. -/
def begin (p : Poller) (clock : EpochClock) (now : Instant) (queue : WorkQueue) :
    PollCycle × WorkQueue :=
  let rest := beginQueue queue clock now
  let buffers := Buffers.empty Wire.transactionLength
  let buffers := if queue.needFlush then (buffers.emit Frame.flush).2 else buffers
  let (sent, buffers) := pack p.table 0 rest.items.toList buffers
  (⟨queue.needFlush, sent, buffers⟩, rest)

def beginNotices (p : Poller) (cycle : PollCycle) : List PollNotice :=
  if cycle.flushing then [.abandoning p.device] else []

/-! ## End of a cycle -/

/-- Moves accepted items into the table, and returns the ids that were still in flight. -/
def insertAccepted (table : InFlight) : List Item → List UInt16 × InFlight
  | [] => ([], table)
  | item :: rest =>
    let (id, displaced, table) := table.insertNext item
    let (reissued, table) := insertAccepted table rest
    (if displaced.isSome then id :: reissued else reissued, table)

/-- Ends a cycle whose exchange failed: nothing was accepted, and a flush stays due. -/
def finishFailed (p : Poller) (cycle : PollCycle) (error : BusError) (queue : Guarded WorkQueue) :
    PollFinished :=
  let outcome : PollOutcome := {
    delay := p.interval
    transportOk := false
    flushed := false
    sent := cycle.sent.length
    accepted := 0
    overflow := false
    dispatch := .zero }
  let notices := [.transferFailed p.device error]
  match cycle.flushing, queue with
  | false, queue => ⟨p, queue, [], notices, .ok outcome⟩
  | true, .sound q => ⟨p, .sound q.armFlush, [], notices, .ok outcome⟩
  | true, .poisoned => ⟨p, .poisoned, [], notices, .error (.queuePoisoned p.device)⟩

def settle (cycle : PollCycle) (header : ReplyHeader) (table : InFlight)
    (queue : WorkQueue) : Bool × List UInt16 × InFlight × WorkQueue :=
  if header.accepted = 0 then
    (false, [], table, queue.setNewestInFlight table.newest?)
  else
    let accepted := cycle.sent.take header.accepted.toNat
    let (more, queue) := queue.observeAccepted header.accepted.toNat
    let (reissued, table) := insertAccepted table accepted
    (more, reissued, table, (queue.removeAccepted accepted).setNewestInFlight table.newest?)

/-- Ends a cycle with a reply: its records are dispatched, a flush clears the table, and the accepted
items move from the queue to the table. -/
def finishReceived (p : Poller) (cycle : PollCycle) (rx : List UInt8) (queue : Guarded WorkQueue) :
    PollFinished :=
  let header := ReplyHeader.decode rx
  let dispatched := dispatch p.device p.cores p.table rx
  let table := if cycle.flushing then dispatched.table.clear else dispatched.table
  let notices :=
    (if header.overflow then [.overflow p.device] else [])
      ++ dispatched.notices.toList.map .dispatch
      ++ (if cycle.flushing then [.dropped p.device dispatched.table.size] else [])
  match queue with
  | .poisoned =>
    ⟨{ p with table }, .poisoned, dispatched.events.toList, notices,
      .error (.queuePoisoned p.device)⟩
  | .sound q =>
    let receipt :=
      .receipt p.device header.accepted cycle.sent.length q.capacity table.size
    let (more, reissued, table, q) := settle cycle header table q
    { poller := { p with table }
      queue := .sound q
      events := dispatched.events.toList
      notices := notices ++ [receipt] ++ reissued.map (.reissued p.device)
      result := .ok {
        delay := if cycle.flushing ∨ more then 0 else p.interval
        transportOk := true
        flushed := cycle.flushing
        sent := cycle.sent.length
        accepted := header.accepted
        overflow := header.overflow
        dispatch := dispatched.summary } }

/-- Ends a cycle. If the bus crashed there is no end: the cycle is lost, and the queue stays as it is. -/
def finish (p : Poller) (cycle : PollCycle) (queue : Guarded WorkQueue) :
    Exchange → Option PollFinished
  | .crashed => none
  | .failed error => some (p.finishFailed cycle error queue)
  | .received rx => some (p.finishReceived cycle rx queue)

/-- One whole cycle with a bus. If the bus crashed, only what `begin` did to the queue remains. -/
def cycle {β : Type} [Bus β] (p : Poller) (clock : EpochClock) (now : Instant) (queue : WorkQueue)
    (bus : β) : PollCycle × Guarded WorkQueue × Option PollFinished × β :=
  let (cycle, rest) := p.begin clock now queue
  let (exchange, bus) := Bus.exchange bus cycle.buffers.tx cycle.buffers.length
  let finished := p.finish cycle (.sound rest) exchange
  (cycle, finished.elim (.sound rest) PollFinished.queue, finished, bus)

end Poller

end Hashboard
