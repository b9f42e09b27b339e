import Hashboard.Proofs.Receipt

/-!
# A device polled as a whole

A station is a queue with its clock, its poller and a bus. Its one user does one thing at a time: nothing
happens to the queue while a cycle is on the bus.
-/

namespace Hashboard

/-- A queue with its clock, and the poller and the bus that empty it. -/
structure Station (β : Type) where
  clock : EpochClock
  queue : WorkQueue
  poller : Poller
  bus : β

namespace Station

inductive Act where
  | append (item : Item)
  | prune
  | flush (now : Instant)
  | advance (epoch : UInt64) (keepInFlight : Bool)
  /-- One whole cycle. -/
  | poll (now : Instant)

variable {β : Type}

def start (device : String) (cores : CoreMap) (interval : Nat) (epoch : UInt64) (bus : β) : Station β where
  clock := .start epoch
  queue := .empty
  poller := .start device cores interval
  bus := bus

/-- The cycle that a poll begins now. -/
def cycle (s : Station β) (now : Instant) : PollCycle :=
  (s.poller.begin s.clock now s.queue).1

/-- The queue while that cycle is on the bus. -/
def rest (s : Station β) (now : Instant) : WorkQueue :=
  (s.poller.begin s.clock now s.queue).2

variable {s : Station β} {now : Instant}

/-! ## What a cycle takes from the queue -/

@[simp] theorem items_rest : (s.rest now).items.toList = WorkQueue.freshOf s.clock s.queue.items.toList :=
  Poller.items_beginQueue _ _ _

/-- The items sent stand in front of the queue, so the accepted ones leave it from the front. -/
theorem rest_split (s : Station β) (now : Instant) (rx : List UInt8) :
    (s.rest now).items.toList = (s.cycle now).taken rx ++
      (s.poller.queueAfter (s.cycle now) rx (s.rest now)).items.toList := by
  have hfront : (s.cycle now).taken rx <+: (s.rest now).items.toList := by
    rw [PollCycle.taken, cycle, Poller.begin_sent, items_rest, List.take_take]
    exact List.take_prefix _ _
  obtain ⟨behind, hsplit⟩ := hfront
  rw [Poller.items_queueAfter, ← hsplit, WorkQueue.foldl_erase_front]

/-! ## Runs -/

section Runs

variable [Bus β]

/-- How the exchange of that cycle ends. -/
def answer (s : Station β) (now : Instant) : Exchange :=
  (Bus.exchange s.bus (s.cycle now).buffers.tx (s.cycle now).buffers.length).1

/-- One whole cycle. A crash of the bus leaves what the beginning of the cycle did to the queue. -/
def poll (s : Station β) (now : Instant) : Station β :=
  let (_, queue, finished, bus) := s.poller.cycle s.clock now s.queue s.bus
  match queue with
  | .sound queue => { s with queue, poller := finished.elim s.poller PollFinished.poller, bus }
  | .poisoned => s

/-- What the end of that cycle brings: none if the bus crashes. -/
def finished? (s : Station β) (now : Instant) : Option PollFinished :=
  (s.poller.cycle s.clock now s.queue s.bus).2.2.1

def act (s : Station β) : Act → Station β
  | .append item => { s with queue := (s.queue.append s.clock item).2 }
  | .prune => { s with queue := s.queue.prune s.clock }
  | .flush now => { s with queue := (s.queue.flush s.clock now).2 }
  | .advance epoch keepInFlight => { s with clock := s.clock.advance epoch keepInFlight }
  | .poll now => s.poll now

def run (s : Station β) (acts : List Act) : Station β :=
  acts.foldl act s

variable {front behind : List Act} {a : Act}

theorem act_poll : s.act (.poll now) = s.poll now := rfl

@[simp] theorem run_nil : s.run [] = s := rfl

theorem run_cons : s.run (a :: behind) = (s.act a).run behind := rfl

theorem run_append : s.run (front ++ behind) = (s.run front).run behind :=
  List.foldl_append

theorem run_concat : s.run (front ++ [a]) = (s.run front).act a := by
  rw [run_append, run_cons, run_nil]

/-! ## How a cycle can end -/

private theorem poll_eq :
    let finished := s.poller.finish (s.cycle now) (.sound (s.rest now)) (s.answer now)
    let bus := (Bus.exchange s.bus (s.cycle now).buffers.tx (s.cycle now).buffers.length).2
    s.poll now = match finished.elim (.sound (s.rest now)) PollFinished.queue with
      | .sound queue => { s with queue, poller := finished.elim s.poller PollFinished.poller, bus }
      | .poisoned => s := rfl

theorem finished?_received {rx : List UInt8} (h : s.answer now = .received rx) :
    s.finished? now = some (s.poller.finishReceived (s.cycle now) rx (.sound (s.rest now))) := by
  show s.poller.finish (s.cycle now) (.sound (s.rest now)) (s.answer now) = _
  rw [h]
  rfl

theorem poll_received {rx : List UInt8} (h : s.answer now = .received rx) :
    s.poll now = {
      clock := s.clock
      queue := s.poller.queueAfter (s.cycle now) rx (s.rest now)
      poller := { s.poller with table := s.poller.tableAfter (s.cycle now) rx }
      bus := (Bus.exchange s.bus (s.cycle now).buffers.tx (s.cycle now).buffers.length).2 } := by
  rw [poll_eq, h]
  simp [Poller.finish]

theorem poll_failed {error : BusError} (h : s.answer now = .failed error) :
    s.poll now = {
      clock := s.clock
      queue := if (s.cycle now).flushing then (s.rest now).armFlush else s.rest now
      poller := s.poller
      bus := (Bus.exchange s.bus (s.cycle now).buffers.tx (s.cycle now).buffers.length).2 } := by
  rw [poll_eq, h]
  simp [Poller.finish]

theorem poll_crashed (h : s.answer now = .crashed) :
    s.poll now = {
      clock := s.clock
      queue := s.rest now
      poller := s.poller
      bus := (Bus.exchange s.bus (s.cycle now).buffers.tx (s.cycle now).buffers.length).2 } := by
  rw [poll_eq, h]
  simp [Poller.finish]

end Runs

end Station

end Hashboard
