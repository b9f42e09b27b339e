import Hashboard.EpochClock
import Hashboard.Time

/-!
# The work queue of a device

Items wait here until the boards accept them. The queue starts with room for one item and learns from
each receipt how many more the boards take. Stale items are dropped when room is needed and before each
poll. Emptying the queue also asks for a hardware flush if the newest item on the boards is out of date.
-/

namespace Hashboard

structure QueueCounts where
  enqueued : Nat
  rejected : Nat
  pruned : Nat
  flushed : Nat
  deriving DecidableEq, Repr

namespace QueueCounts

def zero : QueueCounts := ⟨0, 0, 0, 0⟩

end QueueCounts

/-- The local queue of a device and what it knows about the boards. -/
structure WorkQueue where
  /-- The waiting items, oldest first. -/
  items : Array Item
  /-- The number of items to hold at most, as learned from the boards. -/
  capacity : Nat
  /-- Whether the queue was at capacity when that was last looked at. -/
  full : Bool
  /-- Whether the next poll has to start with a hardware flush. -/
  needFlush : Bool
  /-- The item that the boards accepted last, among those still on them. -/
  newestInFlight : Option Item
  /-- When a poll was asked for, if one was. -/
  pollRequest : Option Instant
  counts : QueueCounts

namespace WorkQueue

/-- The learned capacity stays within half of the id space, so that work in flight can retire before its
id comes round again. -/
def maxCapacity : Nat := Wire.idSpace / 2

/-- A queue with room for one item. -/
def empty : WorkQueue where
  items := #[]
  capacity := 1
  full := false
  needFlush := false
  newestInFlight := none
  pollRequest := none
  counts := .zero

def size (q : WorkQueue) : Nat :=
  q.items.size

/-- Looks again whether the queue is at capacity. -/
def measure (q : WorkQueue) : WorkQueue :=
  { q with full := q.capacity ≤ q.size }

/-- Drops the items made before the current epoch. -/
def prune (q : WorkQueue) (clock : EpochClock) : WorkQueue :=
  let kept := q.items.filter fun item => !clock.isStale .relaxed item
  measure { q with
    items := kept
    counts := { q.counts with pruned := q.counts.pruned + (q.size - kept.size) } }

/-- Adds an item behind the others and drops stale items if that fills the queue. -/
def push (q : WorkQueue) (clock : EpochClock) (item : Item) : WorkQueue :=
  let q := measure { q with
    items := q.items.push item
    counts := { q.counts with enqueued := q.counts.enqueued + 1 } }
  if q.full then q.prune clock else q

/-- Offers an item to the queue, which makes room first if it is at capacity; tells whether the item was
taken. -/
def append (q : WorkQueue) (clock : EpochClock) (item : Item) : Bool × WorkQueue :=
  if q.capacity ≤ q.size then
    let q := q.prune clock
    if q.full then
      (false, { q with counts := { q.counts with rejected := q.counts.rejected + 1 } })
    else
      (true, q.push clock item)
  else
    (true, q.push clock item)

def appendAll (q : WorkQueue) (clock : EpochClock) (items : List Item) : Nat × WorkQueue :=
  items.foldl (fun (taken, q) item =>
    let (ok, q) := q.append clock item
    (taken + ok.toNat, q)) (0, q)

/-- Whether the newest item on the boards is out of date even for work in flight. -/
def inFlightIsStale (q : WorkQueue) (clock : EpochClock) : Bool :=
  q.newestInFlight.any (clock.isStale .urgent)

/-- Empties the queue. If the newest item on the boards is out of date, the next poll has to start with
a hardware flush and is asked for at once; tells whether it is. -/
def flush (q : WorkQueue) (clock : EpochClock) (now : Instant) : Bool × WorkQueue :=
  let stale := q.inFlightIsStale clock
  let q := { q with
    items := #[]
    full := false
    counts := { q.counts with flushed := q.counts.flushed + q.size } }
  (stale, if stale then { q with needFlush := true, pollRequest := some now } else q)

def armFlush (q : WorkQueue) : WorkQueue :=
  { q with needFlush := true }

def disarmFlush (q : WorkQueue) : WorkQueue :=
  { q with needFlush := false }

/-- Learns from a receipt: the capacity grows to the accepted count, within its bound. Tells whether the
boards took at least as much as was known, so that another poll is worth its while at once. -/
def observeAccepted (q : WorkQueue) (accepted : Nat) : Bool × WorkQueue :=
  if accepted < q.capacity then
    (false, q)
  else
    (true, { q with capacity := max (min accepted maxCapacity) q.capacity })

/-- Takes each accepted item out of the queue once; items that are gone already are passed over. -/
def removeAccepted (q : WorkQueue) (accepted : List Item) : WorkQueue :=
  measure { q with items := accepted.foldl Array.erase q.items }

def setNewestInFlight (q : WorkQueue) (item : Option Item) : WorkQueue :=
  { q with newestInFlight := item }

/-- Asks for a poll; of two requests the earlier counts. -/
def requestPoll (q : WorkQueue) (due : Instant) : WorkQueue :=
  { q with pollRequest := some (q.pollRequest.elim due (min · due)) }

/-- Drops a poll request that has fallen due. -/
def settlePollRequest (q : WorkQueue) (now : Instant) : WorkQueue :=
  { q with pollRequest := q.pollRequest.filter (now < ·) }

end WorkQueue

end Hashboard
