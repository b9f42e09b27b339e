import Hashboard.Poll
import Hashboard.TransferHealth

/-!
# The life of a device

A device is brought up, then its poll loop runs cycle after cycle until the device is stopped or the loop
gives up. The bus belongs to the device while it is stopped and to the loop while it runs; a crash of the
bus takes it away for good.

The loop is seen from its transactions: it waits between two cycles, or its buffers are on the bus and a step
says how the exchange ended.
-/

namespace Hashboard

/-- Where the bus of a device is. -/
inductive Phase where
  /-- With the device, which is stopped. -/
  | stopped
  /-- With the loop, between two cycles. -/
  | waiting (poller : Poller) (health : TransferHealth)
  /-- With the loop, in the middle of a transaction. -/
  | polling (poller : Poller) (cycle : PollCycle) (health : TransferHealth)
  /-- With the loop, which has ended by itself; stopping the device brings the bus back. -/
  | ended
  /-- Gone with the loop, in a crash that nobody has looked at. -/
  | crashed
  /-- Gone in a crash while the device was started, which left it marked as such. -/
  | abandoned
  /-- Gone, and the device is stopped. -/
  | lost

inductive DeviceError where
  | busLost (device : String)
  | poll (error : PollError)
  deriving DecidableEq, Repr

def DeviceError.message : DeviceError → String
  | busLost device => s!"{device}: bus was lost by an earlier run"
  | poll error => error.message

inductive DeviceNotice where
  | poll (notice : PollNotice)
  | health (device : String) (notice : HealthNotice)
  | started (device bus : String) (cores enabled : Nat)
  | flushing (device : String)
  | stopping (device : String) (error : PollError)
  | exiting (device : String)
  | loopCrashed (device : String)
  deriving DecidableEq, Repr

def DeviceNotice.record : DeviceNotice → Log.Record
  | poll notice => notice.record
  | health device notice => notice.record device
  | started device bus cores enabled =>
    ⟨.info, "DEVICE", s!"{device}: started on {bus} with {cores} cores ({enabled} enabled)"⟩
  | flushing device =>
    ⟨.debug, "DEVICE", s!"{device}: in-flight work is stale, flushing hardware queue"⟩
  | stopping device error => ⟨.error, "DEVICE", s!"{device}: poll thread stopping: {error.message}"⟩
  | exiting device => ⟨.debug, "DEVICE", s!"{device}: poll thread exiting"⟩
  | loopCrashed device => ⟨.error, "DEVICE", s!"{device}: poll thread panicked"⟩

/-- A chain of boards behind one bus. -/
structure Device where
  name : String
  bus : String
  cores : CoreMap
  /-- The pause between polls, in microseconds. -/
  interval : Nat
  queue : Guarded WorkQueue
  mailbox : Mailbox
  phase : Phase

namespace Device

def create (name bus : String) (cores : CoreMap) (interval : Nat) : Device where
  name := name
  bus := bus
  cores := cores
  interval := interval
  queue := .sound .empty
  mailbox := .empty
  phase := .stopped

/-- The learned capacity of the queue; zero if its lock is poisoned. -/
def capacity (d : Device) : Nat :=
  match d.queue with
  | .sound q => q.capacity
  | .poisoned => 0

/-- The counts of the queue; all zero if its lock is poisoned. -/
def counts (d : Device) : QueueCounts :=
  match d.queue with
  | .sound q => q.counts
  | .poisoned => .zero

/-- The buffers on the bus, if the loop is in a transaction. -/
def transaction? (d : Device) : Option (List UInt8) :=
  match d.phase with
  | .polling _ cycle _ => some cycle.buffers.tx
  | _ => none

/-! ## Calls from outside -/

def attachReceiver (d : Device) : Device :=
  { d with mailbox := d.mailbox.attach }

def enqueue (d : Device) (clock : EpochClock) (item : Item) : Bool × Device :=
  match d.queue with
  | .sound q =>
    let (taken, q) := q.append clock item
    (taken, { d with queue := .sound q })
  | .poisoned => (false, d)

def enqueueAll (d : Device) (clock : EpochClock) (items : List Item) : Nat × Device :=
  match d.queue with
  | .sound q =>
    let (taken, q) := q.appendAll clock items
    (taken, { d with queue := .sound q })
  | .poisoned => (0, d)

/-- Drops all waiting items, and has the boards flushed if their work is out of date. -/
def flushAll (d : Device) (clock : EpochClock) (now : Instant) : Device × List DeviceNotice :=
  match d.queue with
  | .sound q =>
    let (armed, q) := q.flush clock now
    ({ d with queue := .sound q }, if armed then [.flushing d.name] else [])
  | .poisoned => (d, [])

def pollAt (d : Device) (due : Instant) : Device :=
  match d.queue with
  | .sound q => { d with queue := .sound (q.requestPoll due) }
  | .poisoned => d

/-- A crash while the queue was locked. -/
def poison (d : Device) : Device :=
  { d with queue := .poisoned }

/-! ## The poll loop -/

/-- The loop comes round: it begins the next cycle, or ends if the queue cannot be locked. -/
def turn (d : Device) (clock : EpochClock) (now : Instant) : Device × List DeviceNotice :=
  match d.phase, d.queue with
  | .waiting poller health, .sound q =>
    let (cycle, q) := poller.begin clock now q
    ({ d with queue := .sound q, phase := .polling poller cycle health },
      (poller.beginNotices cycle).map .poll)
  | .waiting .., .poisoned =>
    ({ d with
        mailbox := d.mailbox.put (.error d.name "work queue lock poisoned")
        phase := .ended },
      [.exiting d.name])
  | _, _ => (d, [])

/-- A cycle has ended without a crash: its events go out, and the loop waits or gives up. -/
def settleCycle (d : Device) (health : TransferHealth) (finished : PollFinished) :
    Device × List DeviceNotice :=
  let d := { d with queue := finished.queue, mailbox := d.mailbox.putAll finished.events }
  let notices := finished.notices.map .poll
  match finished.result with
  | .ok outcome =>
    let (health, report) := health.record outcome.transportOk
    ({ d with phase := .waiting finished.poller health }, notices ++ report.toList.map (.health d.name))
  | .error error =>
    ({ d with mailbox := d.mailbox.put (.error d.name error.message), phase := .ended },
      notices ++ [.stopping d.name error, .exiting d.name])

/-- The exchange on the bus ends, and with it the cycle. -/
def finish (d : Device) (exchange : Exchange) : Device × List DeviceNotice :=
  match d.phase with
  | .polling poller cycle health =>
    match poller.finish cycle d.queue exchange with
    | none => ({ d with phase := .crashed }, [])
    | some finished => d.settleCycle health finished
  | _ => (d, [])

/-- The exchange on the bus ends, and the loop goes on to its next transaction at once. -/
def reply (d : Device) (clock : EpochClock) (now : Instant) (exchange : Exchange) :
    Device × List DeviceNotice :=
  let (d, notices) := d.finish exchange
  let (d, more) := d.turn clock now
  (d, notices ++ more)

/-! ## Start and stop -/

/-- The transaction that `start` needs, if it needs one. -/
def bringUpTransaction? (d : Device) : Option (List UInt8) :=
  match d.phase with
  | .stopped => some Poller.bringUpBuffers.tx
  | _ => none

/-- Whether a loop can go by a name: a zero character would end it. -/
def canName (name : String) : Bool :=
  !name.contains '\x00'

/-- Starts the device. A started device stays as it is. A stopped one is brought up by a transaction
that ends with `exchange`, and its loop, which goes by the name of the device, waits for its first cycle. None
is the answer to a crash. -/
def launch (d : Device) (now : Instant) (exchange : Exchange) :
    Option (Except DeviceError Unit) × Device × List DeviceNotice :=
  match d.phase with
  | .waiting .. | .polling .. | .ended | .crashed | .abandoned => (some (.ok ()), d, [])
  | .lost => (some (.error (.busLost d.name)), d, [])
  | .stopped =>
    let notices := [.poll (.bringingUp d.name)]
    match Poller.bringUp d.name d.queue now exchange with
    | none => (none, { d with phase := .abandoned }, notices)
    | some (.error error, queue) => (some (.error (.poll error)), { d with queue }, notices)
    | some (.ok (), queue) =>
      if canName d.name then
        (some (.ok ()), { d with queue, phase := .waiting (.start d.name d.cores d.interval) .good },
          notices ++ [.started d.name d.bus d.cores.size d.cores.enabledCount])
      else
        (none, { d with queue, phase := .abandoned }, notices)

/-- Starts the device. If it was stopped and comes up, its loop begins the first cycle at once. -/
def start (d : Device) (clock : EpochClock) (now : Instant) (exchange : Exchange) :
    Option (Except DeviceError Unit) × Device × List DeviceNotice :=
  match d.phase, d.launch now exchange with
  | .stopped, (answer, d, notices) =>
    let (d, more) := d.turn clock now
    (answer, d, notices ++ more)
  | _, launched => launched

/-- What stopping does to the queue: it is emptied, and nothing is known of the boards any more. -/
def clearQueue (clock : EpochClock) (now : Instant) : Guarded WorkQueue → Guarded WorkQueue
  | .sound q => .sound (((q.flush clock now).2.disarmFlush).setNewestInFlight none)
  | .poisoned => .poisoned

/-- The loop ends; a transaction that it is in ends with `exchange`. -/
def joinLoop (d : Device) (exchange : Exchange) : Device × List DeviceNotice :=
  let (d, notices) := d.finish exchange
  match d.phase with
  | .waiting .. => ({ d with phase := .stopped }, notices ++ [.exiting d.name])
  | .ended => ({ d with phase := .stopped }, notices)
  | .crashed => ({ d with phase := .lost }, notices ++ [.loopCrashed d.name])
  | .abandoned => ({ d with phase := .lost }, notices)
  -- once its exchange has ended, the loop is in no transaction
  | .stopped | .polling .. | .lost => (d, notices)

def started (d : Device) : Bool :=
  match d.phase with
  | .waiting .. | .polling .. | .ended | .crashed | .abandoned => true
  | .stopped | .lost => false

/-- Stops the device: the loop ends, and the queue is emptied. A stopped device stays as it is. -/
def stop (d : Device) (clock : EpochClock) (now : Instant) (exchange : Exchange) :
    Device × List DeviceNotice :=
  if d.started then
    let (d, notices) := d.joinLoop exchange
    ({ d with queue := clearQueue clock now d.queue }, notices)
  else
    (d, [])

end Device

end Hashboard
