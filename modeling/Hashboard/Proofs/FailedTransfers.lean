import Hashboard.Proofs.Receipt

/-!
# Transfers that fail

A cycle whose transfer fails has begun like any other: stale items are dropped, a flush that is due is taken,
ids are promised, and the buffers are filled. Still the next cycle is the one that would have been. It sends
the same bytes, and ends in the same way, however many transfers have failed before it.
-/

namespace Hashboard

/-! ## Queues that differ in their poll requests -/

namespace WorkQueue

variable {q q' : WorkQueue} {clock : EpochClock} {request : Option Instant}

/-- The queue with another poll request, or without one. -/
def requesting (q : WorkQueue) (request : Option Instant) : WorkQueue :=
  { q with pollRequest := request }

theorem prune_prune : (q.prune clock).prune clock = q.prune clock := by
  refine prune_of_fresh rfl ?_
  intro item hi
  rw [items_prune] at hi
  simpa using (List.mem_filter.mp hi).2

/-- Once stale items are dropped, the queues differ in their poll requests at most. -/
def Alike (clock : EpochClock) (q q' : WorkQueue) : Prop :=
  q.prune clock = (q'.prune clock).requesting q.pollRequest

theorem Alike.refl (clock : EpochClock) (q : WorkQueue) : Alike clock q q := rfl

theorem Alike.trans {q₁ q₂ q₃ : WorkQueue} (h : Alike clock q₁ q₂) (h' : Alike clock q₂ q₃) :
    Alike clock q₁ q₃ := by
  unfold Alike at h h' ⊢
  rw [h, h']
  rfl

theorem Alike.prune_eq (h : Alike clock q q') : q.prune clock = (q'.prune clock).requesting q.pollRequest :=
  h

theorem Alike.needFlush_eq (h : Alike clock q q') : q.needFlush = q'.needFlush := by
  show (q.prune clock).needFlush = q'.needFlush
  rw [h.prune_eq]
  rfl

theorem Alike.settle_prune (h : Alike clock q q') (now : Instant) :
    Alike clock ((q.settlePollRequest now).prune clock) q' := by
  have hsettled : (q.settlePollRequest now).prune clock =
      (q.prune clock).requesting (q.settlePollRequest now).pollRequest := rfl
  show ((q.settlePollRequest now).prune clock).prune clock = _
  rw [prune_prune, hsettled, h.prune_eq]
  rfl

theorem observeAccepted_requesting {accepted : Nat} :
    (q.requesting request).observeAccepted accepted =
      ((q.observeAccepted accepted).1, (q.observeAccepted accepted).2.requesting request) := by
  unfold observeAccepted requesting
  split <;> rfl

end WorkQueue

/-! ## Buffers that were used before -/

namespace Poller

variable {p : Poller} {clock : EpochClock} {now : Instant} {q q' : WorkQueue} {cycle : PollCycle}
  {rx : List UInt8} {request : Option Instant}

/-- Begins a cycle in buffers that were used before. -/
def beginIn (p : Poller) (buffers : Buffers) (clock : EpochClock) (now : Instant) (queue : WorkQueue) :
    PollCycle × WorkQueue :=
  let rest := beginQueue queue clock now
  let buffers := buffers.clear
  let buffers := if queue.needFlush then (buffers.emit Frame.flush).2 else buffers
  let (sent, buffers) := pack p.table 0 rest.items.toList buffers
  (⟨queue.needFlush, sent, buffers⟩, rest)

theorem beginIn_eq {buffers : Buffers} (h : buffers.length = Wire.transactionLength) :
    p.beginIn buffers clock now q = p.begin clock now q := by
  unfold beginIn begin Buffers.clear
  rw [h]

theorem beginQueue_eq : beginQueue q clock now =
    ((q.prune clock).disarmFlush).requesting (beginQueue q clock now).pollRequest := rfl

theorem beginQueue_alike (h : q.Alike clock q') (now' : Instant) :
    beginQueue q clock now =
      (beginQueue q' clock now').requesting (beginQueue q clock now).pollRequest := by
  rw [beginQueue_eq, beginQueue_eq (q := q'), h.prune_eq]
  rfl

theorem begin_alike (h : q.Alike clock q') (now' : Instant) :
    (p.begin clock now q).1 = (p.begin clock now' q').1 := by
  have hitems : (beginQueue q clock now).items = (beginQueue q' clock now').items := by
    rw [beginQueue_alike h now']
    rfl
  unfold begin
  simp only [hitems, h.needFlush_eq]

theorem settle_requesting {header : ReplyHeader} {table : InFlight} :
    settle cycle header table (q.requesting request) =
      let settled := settle cycle header table q
      (settled.1, settled.2.1, settled.2.2.1, settled.2.2.2.requesting request) := by
  unfold settle
  split
  · rfl
  · rw [WorkQueue.observeAccepted_requesting]
    rfl

theorem finishReceived_requesting :
    p.finishReceived cycle rx (.sound (q.requesting request)) =
      { p.finishReceived cycle rx (.sound q) with
        queue := .sound ((p.queueAfter cycle rx q).requesting request) } := by
  simp only [finishReceived, dispatch_cleared, settle_requesting]
  rfl

/-- A cycle whose transfer fails leaves the queue as pruning leaves it: a flush that was taken is due again. -/
theorem finishFailed_begin {error : BusError} :
    (p.finishFailed (p.begin clock now q).1 error (.sound (p.begin clock now q).2)).queue =
      .sound ((q.settlePollRequest now).prune clock) := by
  have hdue : ∀ due, q.needFlush = due →
      (q.settlePollRequest now).prune clock = { beginQueue q clock now with needFlush := due } := by
    rintro _ rfl
    rfl
  rw [finishFailed_queue, begin_flushing, begin_rest]
  cases hn : q.needFlush with
  | false => exact congrArg _ (hdue false hn).symm
  | true => exact congrArg _ (hdue true hn).symm

end Poller

/-! ## Failures in a row -/

/-- A poll loop between two cycles, with the buffers that all its cycles use. -/
structure BufferedLoop where
  clock : EpochClock
  queue : WorkQueue
  poller : Poller
  buffers : Buffers
  sized : buffers.length = Wire.transactionLength

/-- A transfer that fails: when its cycle begins, how it fails, and what the bus has left in the receive
buffer. -/
structure FailedTransfer where
  now : Instant
  error : BusError
  scribble : List UInt8

namespace BufferedLoop

variable {s : BufferedLoop} {now now' : Instant}

def start (device : String) (cores : CoreMap) (interval : Nat) (clock : EpochClock) : BufferedLoop where
  clock := clock
  queue := .empty
  poller := .start device cores interval
  buffers := .empty Wire.transactionLength
  sized := Array.size_replicate

def cycle (s : BufferedLoop) (now : Instant) : PollCycle :=
  (s.poller.beginIn s.buffers s.clock now s.queue).1

def rest (s : BufferedLoop) (now : Instant) : WorkQueue :=
  (s.poller.beginIn s.buffers s.clock now s.queue).2

/-- How a cycle that begins now ends: none if the bus crashes. -/
def finished? (s : BufferedLoop) (now : Instant) (exchange : Exchange) : Option PollFinished :=
  s.poller.finish (s.cycle now) (.sound (s.rest now)) exchange

theorem cycle_eq : s.cycle now = (s.poller.begin s.clock now s.queue).1 := by
  rw [cycle, Poller.beginIn_eq s.sized]

theorem rest_eq : s.rest now = Poller.beginQueue s.queue s.clock now := by
  rw [rest, Poller.beginIn_eq s.sized, Poller.begin_rest]

/-- The loop after a cycle whose transfer fails. -/
def fail (s : BufferedLoop) (t : FailedTransfer) : BufferedLoop where
  clock := s.clock
  queue :=
    match (s.poller.finishFailed (s.cycle t.now) t.error (.sound (s.rest t.now))).queue with
    | .sound queue => queue
    | .poisoned => s.queue
  poller := (s.poller.finishFailed (s.cycle t.now) t.error (.sound (s.rest t.now))).poller
  buffers := { (s.cycle t.now).buffers.pad with rx := t.scribble }
  sized := by
    rw [cycle_eq]
    exact Poller.begin_pad_length s.poller s.clock t.now s.queue

theorem queue_fail (s : BufferedLoop) (t : FailedTransfer) :
    (s.poller.finishFailed (s.cycle t.now) t.error (.sound (s.rest t.now))).queue =
      .sound ((s.queue.settlePollRequest t.now).prune s.clock) := by
  rw [cycle_eq, rest_eq]
  exact Poller.finishFailed_begin

theorem fail_queue (s : BufferedLoop) (t : FailedTransfer) :
    (s.fail t).queue = (s.queue.settlePollRequest t.now).prune s.clock := by
  unfold fail
  rw [queue_fail]

theorem fail_poller (s : BufferedLoop) (t : FailedTransfer) : (s.fail t).poller = s.poller :=
  Poller.finishFailed_poller

/-- However many transfers fail, only stale items and poll requests go. -/
theorem fails_alike (s : BufferedLoop) (failures : List FailedTransfer) :
    let s' := failures.foldl fail s
    s'.clock = s.clock ∧ s'.poller = s.poller ∧ s'.queue.Alike s.clock s.queue := by
  induction failures generalizing s with
  | nil => exact ⟨rfl, rfl, WorkQueue.Alike.refl _ _⟩
  | cons t failures ih =>
      obtain ⟨hclock, hpoller, hqueue⟩ := ih (s.fail t)
      refine ⟨hclock, hpoller.trans (s.fail_poller t), hqueue.trans ?_⟩
      rw [fail_queue]
      exact (WorkQueue.Alike.refl s.clock s.queue).settle_prune t.now

theorem cycle_alike {s s' : BufferedLoop} (hclock : s'.clock = s.clock) (hpoller : s'.poller = s.poller)
    (hqueue : s'.queue.Alike s.clock s.queue) (now now' : Instant) : s'.cycle now = s.cycle now' := by
  rw [cycle_eq, cycle_eq, hclock, hpoller]
  exact Poller.begin_alike hqueue now'

/-- A failed transfer is invisible: the next cycle is the same, with the bytes that it sends and the cleared
buffer that it receives into, and ends in the same way, but for its poll request; and all that the failed one has
changed is what any cycle changes as it begins. -/
theorem failures_invisible (s : BufferedLoop) (failures : List FailedTransfer) :
    let s' := failures.foldl fail s
    (∀ now now', s'.cycle now = s.cycle now' ∧
      (s'.cycle now).buffers.tx.length = Wire.transactionLength) ∧
    (∀ now now' rx, ∃ alone queue, s.finished? now' (.received rx) = some alone ∧
      alone.queue = .sound queue ∧
      s'.finished? now (.received rx) =
        some { alone with queue := .sound (queue.requesting (s'.rest now).pollRequest) }) ∧
    (∀ t : FailedTransfer, ∃ finished, s'.finished? t.now (.failed t.error) = some finished ∧
      finished.events = [] ∧
      finished.result = .ok {
        delay := s'.poller.interval
        transportOk := false
        flushed := false
        sent := (s'.cycle t.now).sent.length
        accepted := 0
        overflow := false
        dispatch := .zero } ∧
      finished.poller = s'.poller ∧
      let kept := s'.queue.items.filter fun item => !s'.clock.isStale .relaxed item
      finished.queue = .sound { s'.queue with
        items := kept
        full := s'.queue.capacity ≤ kept.size
        pollRequest := s'.queue.pollRequest.filter (t.now < ·)
        counts := { s'.queue.counts with
          pruned := s'.queue.counts.pruned + (s'.queue.items.size - kept.size) } }) := by
  intro s'
  obtain ⟨hclock, hpoller, hqueue⟩ := s.fails_alike failures
  refine ⟨?_, ?_, ?_⟩
  · intro now now'
    refine ⟨cycle_alike hclock hpoller hqueue now now', ?_⟩
    rw [cycle_eq]
    exact Poller.begin_tx_length _ _ _ _
  · intro now now' rx
    have hcycle : s'.cycle now = s.cycle now' := cycle_alike hclock hpoller hqueue now now'
    have hrest : s'.rest now = (s.rest now').requesting (s'.rest now).pollRequest := by
      rw [rest_eq, rest_eq, hclock]
      exact Poller.beginQueue_alike hqueue now'
    refine ⟨_, _, rfl, Poller.finishReceived_queue, ?_⟩
    rw [finished?, hpoller, hcycle, hrest]
    exact congrArg some Poller.finishReceived_requesting
  · intro t
    refine ⟨_, rfl, Poller.finishFailed_events, ?_, Poller.finishFailed_poller, s'.queue_fail t⟩
    unfold Poller.finishFailed
    cases (s'.cycle t.now).flushing <;> rfl

/-- A cycle with a flush and an item fails twice, and then the boards take the item. -/
theorem failures_invisible_twice :
    let item : Item := ⟨0, .replicate Wire.midstateLength 0, .replicate Wire.dataLength 0, 1⟩
    let fresh := start "knc0" .empty Wire.pollIntervalMicros (.start 1)
    let s := { fresh with queue := (fresh.queue.append fresh.clock item).2.armFlush }
    let s' := [⟨0, .poisoned, []⟩, ⟨5, .poisoned, [255]⟩].foldl fail s
    let rx := Reply.write Wire.transactionLength ⟨false, 1⟩ []
    (s.cycle 0).flushing = true ∧ (s.cycle 0).sent = [item] ∧ s'.cycle 9 = s.cycle 0 ∧
      ∃ alone again, s.finished? 0 (.received rx) = some alone ∧ s'.finished? 9 (.received rx) = some again ∧
        again.poller = alone.poller ∧ again.events = alone.events ∧ again.result = alone.result := by
  intro item fresh s s' rx
  obtain ⟨hcycle, hended, _⟩ := failures_invisible s [⟨0, .poisoned, []⟩, ⟨5, .poisoned, [255]⟩]
  obtain ⟨alone, queue, halone, _, hagain⟩ := hended 9 0 rx
  refine ⟨rfl, ?_, (hcycle 9 0).1, alone, _, halone, hagain, rfl, rfl, rfl⟩
  rw [cycle_eq, Poller.begin_sent]
  rfl

end BufferedLoop

end Hashboard
