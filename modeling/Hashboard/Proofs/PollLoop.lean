import Hashboard.Proofs.Receipt

/-!
# A poll loop among its callers

The loop owns its poller and looks at the queue at the beginning and at the end of a cycle. In between, and
between cycles, callers offer items and refresh the work. A run is any order of these actions.
-/

namespace Hashboard

/-- A poll loop and what it shares with its callers. -/
structure PollLoop where
  clock : EpochClock
  queue : WorkQueue
  poller : Poller
  /-- The cycle whose buffers are on the bus. -/
  running : Option PollCycle

namespace PollLoop

def start (device : String) (cores : CoreMap) (interval : Nat) (epoch : UInt64) : PollLoop where
  clock := .start epoch
  queue := .empty
  poller := .start device cores interval
  running := none

/-- The items on the boards, in the order of their insertion. -/
def inFlight (s : PollLoop) : List Item :=
  s.poller.table.live.map Prod.snd

/-! ## Actions -/

def append (s : PollLoop) (item : Item) : PollLoop :=
  { s with queue := (s.queue.append s.clock item).2 }

/-- A caller sets the clock and empties the queue. -/
def refresh (s : PollLoop) (clock : EpochClock) (now : Instant) : PollLoop :=
  { s with clock, queue := (s.queue.flush clock now).2 }

/-- The first half of a cycle. -/
def begin (s : PollLoop) (now : Instant) : PollLoop :=
  let (cycle, queue) := s.poller.begin s.clock now s.queue
  { s with queue, running := some cycle }

/-- The second half of a cycle: none if no cycle is on the bus, or if the bus crashed. -/
def finish? (s : PollLoop) (exchange : Exchange) : Option PollLoop :=
  s.running.bind fun cycle =>
    (s.poller.finish cycle (.sound s.queue) exchange).bind fun finished =>
      match finished.queue with
      | .sound queue => some { s with queue, poller := finished.poller, running := none }
      | .poisoned => none

inductive Action where
  | enqueue (item : Item)
  /-- A hard refresh: the next epoch begins, no work in flight is kept, and the queue is emptied. -/
  | refresh (now : Instant)
  | begin (now : Instant)
  | finish (exchange : Exchange)

def Action.refreshes : Action → Bool
  | .refresh _ => true
  | _ => false

def Action.ofCaller : Action → Bool
  | .enqueue _ | .refresh _ => true
  | .begin _ | .finish _ => false

/-- The loop after an action: none if it cannot happen now. Items are offered in the current epoch. -/
def step? (s : PollLoop) : Action → Option PollLoop
  | .enqueue item => if item.epoch = s.clock.current then some (s.append item) else none
  | .refresh now => (s.clock.next? false).map fun clock => s.refresh clock now
  | .begin now => if s.running.isNone then some (s.begin now) else none
  | .finish exchange => s.finish? exchange

/-- The loop after one action after the other: none if one of them cannot happen. -/
def run? (s : PollLoop) (actions : List Action) : Option PollLoop :=
  actions.foldlM step? s

variable {s s' : PollLoop} {action : Action} {cycle : PollCycle}

/-! ## What an action changes -/

def received (s : PollLoop) (cycle : PollCycle) (rx : List UInt8) : PollLoop :=
  { s with
    queue := s.poller.queueAfter cycle rx s.queue
    poller := { s.poller with table := s.poller.tableAfter cycle rx }
    running := none }

def failed (s : PollLoop) (cycle : PollCycle) : PollLoop :=
  { s with queue := if cycle.flushing then s.queue.armFlush else s.queue, running := none }

theorem running_begin (s : PollLoop) (now : Instant) :
    (s.begin now).running = some (s.poller.begin s.clock now s.queue).1 := rfl

@[simp] theorem items_failed : (s.failed cycle).queue.items = s.queue.items := by
  unfold failed; split <;> rfl

@[simp] theorem newestInFlight_failed :
    (s.failed cycle).queue.newestInFlight = s.queue.newestInFlight := by
  unfold failed; split <;> rfl

theorem finish?_received (h : s.running = some cycle) (rx : List UInt8) :
    s.finish? (.received rx) = some (s.received cycle rx) := by
  simp [finish?, h, Poller.finish, received]

theorem finish?_failed (h : s.running = some cycle) (error : BusError) :
    s.finish? (.failed error) = some (s.failed cycle) := by
  simp [finish?, h, Poller.finish, failed]

/-- All that the second half of a cycle can do. -/
theorem finish?_cases {exchange : Exchange} (h : s.finish? exchange = some s') :
    ∃ cycle, s.running = some cycle ∧
      ((∃ rx, exchange = .received rx ∧ s' = s.received cycle rx) ∨
        (∃ error, exchange = .failed error ∧ s' = s.failed cycle)) := by
  cases hr : s.running with
  | none => simp [finish?, hr] at h
  | some cycle =>
      refine ⟨cycle, rfl, ?_⟩
      cases exchange with
      | received rx =>
          rw [finish?_received hr] at h
          exact Or.inl ⟨rx, rfl, (Option.some.inj h).symm⟩
      | failed error =>
          rw [finish?_failed hr] at h
          exact Or.inr ⟨error, rfl, (Option.some.inj h).symm⟩
      | crashed => simp [finish?, hr, Poller.finish] at h

theorem step?_begin {now : Instant} (h : s.step? (.begin now) = some s') :
    s.running = none ∧ s' = s.begin now := by
  simp only [step?, Option.ite_none_right_eq_some, Option.some.injEq, Option.isNone_iff_eq_none] at h
  exact ⟨h.1, h.2.symm⟩

/-- All that an action can do, with the guard under which it does it. -/
theorem step?_cases (h : s.step? action = some s') :
    (∃ item, action = .enqueue item ∧ item.epoch = s.clock.current ∧ s' = s.append item) ∨
      (∃ now clock, action = .refresh now ∧ s.clock.next? false = some clock ∧
        s' = s.refresh clock now) ∨
      (∃ now, action = .begin now ∧ s.running = none ∧ s' = s.begin now) ∨
      (∃ cycle rx, action = .finish (.received rx) ∧ s.running = some cycle ∧
        s' = s.received cycle rx) ∨
      (∃ cycle error, action = .finish (.failed error) ∧ s.running = some cycle ∧
        s' = s.failed cycle) := by
  cases action with
  | enqueue item =>
      simp only [step?, Option.ite_none_right_eq_some, Option.some.injEq] at h
      exact Or.inl ⟨item, rfl, h.1, h.2.symm⟩
  | refresh now =>
      simp only [step?, Option.map_eq_some_iff] at h
      obtain ⟨clock, hc, rfl⟩ := h
      exact Or.inr (Or.inl ⟨now, clock, rfl, hc, rfl⟩)
  | begin now =>
      obtain ⟨hr, rfl⟩ := step?_begin h
      exact Or.inr (Or.inr (Or.inl ⟨now, rfl, hr, rfl⟩))
  | finish exchange =>
      obtain ⟨cycle, hr, ⟨rx, rfl, rfl⟩ | ⟨error, rfl, rfl⟩⟩ := finish?_cases h
      · exact Or.inr (Or.inr (Or.inr (Or.inl ⟨cycle, rx, rfl, hr, rfl⟩)))
      · exact Or.inr (Or.inr (Or.inr (Or.inr ⟨cycle, error, rfl, hr, rfl⟩)))

/-! ## Runs -/

@[simp] theorem run?_nil : s.run? [] = some s := rfl

theorem run?_cons {rest : List Action} :
    s.run? (action :: rest) = (s.step? action).bind fun s' => s'.run? rest :=
  List.foldlM_cons

theorem run?_append {front rest : List Action} :
    s.run? (front ++ rest) = (s.run? front).bind fun s' => s'.run? rest :=
  List.foldlM_append

/-- What each of the allowed actions preserves, a run of them preserves. -/
theorem run?_preserves {P : PollLoop → Prop} {allowed : Action → Prop}
    (hstep : ∀ {s action s'}, allowed action → s.step? action = some s' → P s → P s')
    {actions : List Action} (ha : ∀ action ∈ actions, allowed action)
    (h : s.run? actions = some s') (hs : P s) : P s' := by
  induction actions generalizing s with
  | nil =>
      rw [run?_nil] at h
      exact Option.some.inj h ▸ hs
  | cons action rest ih =>
      rw [run?_cons, Option.bind_eq_some_iff] at h
      obtain ⟨s₁, h₁, hrest⟩ := h
      exact ih (fun a hm => ha a (by simp [hm])) hrest (hstep (ha action (by simp)) h₁ hs)

/-! ## Plain replies -/

/-- A reply without records that accepts this many items. -/
def receipt (accepted : UInt16) : List UInt8 :=
  Reply.write Wire.transactionLength ⟨false, accepted⟩ []

theorem taken_receipt (cycle : PollCycle) (accepted : UInt16) :
    cycle.taken (receipt accepted) = cycle.sent.take accepted.toNat := by
  rw [PollCycle.taken, receipt, Reply.decode_write (by decide)]

theorem records_receipt (accepted : UInt16) : Reply.records (receipt accepted) = [] := by
  rw [receipt, Reply.records_write (by decide), List.take_nil, List.map_nil]

theorem tableAfter_receipt (p : Poller) (cycle : PollCycle) (accepted : UInt16) :
    p.tableAfter cycle (receipt accepted) =
      (Poller.insertAccepted (if cycle.flushing then p.table.clear else p.table)
        (cycle.sent.take accepted.toNat)).2 := by
  rw [Poller.tableAfter, taken_receipt, PollCycle.cleared, records_receipt]
  rfl

/-- An item of the first epoch. -/
def early : Item :=
  ⟨0, .replicate Wire.midstateLength 0, .replicate Wire.dataLength 0, 1⟩

end PollLoop

end Hashboard
