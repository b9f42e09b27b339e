import Hashboard.Feeder
import Hashboard.Settings
import Hashboard.SharedController
import Hashboard.Simulator

/-!
# Rigs

A rig is a device together with the bus behind it. Rigs take turns: when it is a rig's turn, the
transaction that its device is in ends, and the events that come of it go to the run.
-/

namespace Hashboard

/-- A device and the bus behind it. -/
structure Rig (β : Type) where
  device : Device
  bus : β

inductive RigNotice where
  | noCores (device : String)
  | unavailable (device : String) (error : DeviceError)
  | device (notice : DeviceNotice)

def RigNotice.record : RigNotice → Log.Record
  | noCores name => ⟨.warn, "KNC_MINER", s!"skipping {name}: no cores registered"⟩
  | unavailable name error => ⟨.error, "KNC_MINER", s!"{name} unavailable: {error.message}"⟩
  | device notice => notice.record

namespace Rig

variable {β : Type} [Bus β]

def create (name busName : String) (cores : CoreMap) (pollMicros : Nat) (bus : β) : Rig β :=
  ⟨.create name busName cores pollMicros, bus⟩

instance : WorkDevice (Rig β) where
  enqueue r clock item :=
    let (taken, device) := r.device.enqueue clock item
    (taken, { r with device })
  flushAll r clock now :=
    let (device, records) := WorkDevice.flushAll r.device clock now
    ({ r with device }, records)
  pollAt r due := { r with device := r.device.pollAt due }

/-! ## Simulated rigs -/

def simulatedBoards (s : Simulation) : List UInt8 :=
  (List.range s.boards.toNat).map UInt8.ofNat

/-- The buses of simulated rigs hang on one controller, which lets them take turns. -/
def simulatedController : SharedController Simulator :=
  .start "simbus"

/-- Rigs with simulated boards, all of whose cores work. -/
def simulated (s : Simulation) (pollMicros : Nat) : Except CoreMapError (List (Rig Simulator)) := do
  let statuses := List.replicate Wire.coresPerBoard Wire.coreStatusOk
  let cores ← CoreMap.empty.registerAll ((simulatedBoards s).map (·, statuses))
  let bus := Simulator.start { SimulatorSettings.standard with
    boards := (simulatedBoards s).map (·, UInt32.ofNat Wire.coresPerBoard)
    queueDepth := s.queueDepth
    completionsPerPoll := s.completions }
  return (List.range s.devices.toNat).map fun n =>
    create s!"sim{n}" (simulatedController.busName bus) cores pollMicros bus

/-! ## Start, turns and stop -/

def exchange (r : Rig β) (tx : List UInt8) : Exchange × Rig β :=
  let (outcome, bus) := Bus.exchange r.bus tx tx.length
  (outcome, { r with bus })

inductive Start (β : Type) where
  | up (rig : Rig β)
  | leftOut
  | crashed

/-- Starts a rig. It is left out if it has no cores or does not come up. -/
def start (r : Rig β) (clock : EpochClock) (now : Instant) : Start β × List RigNotice :=
  if r.device.cores.size = 0 then
    (.leftOut, [.noCores r.device.name])
  else
    let (outcome, r) := r.exchange Poller.bringUpBuffers.tx
    let (result, device, notices) := r.device.attachReceiver.start clock now outcome
    let notices := notices.map RigNotice.device
    match result with
    | some (.ok ()) => (.up { r with device }, notices)
    | some (.error e) => (.leftOut, notices ++ [.unavailable device.name e])
    | none => (.crashed, notices)

/-- Starts some rigs and keeps those that come up; none if one crashes. -/
def startAll? (clock : EpochClock) (now : Instant) :
    List (Rig β) → Option (List (Rig β)) × List RigNotice
  | [] => (some [], [])
  | r :: rest =>
    match r.start clock now with
    | (.crashed, notices) => (none, notices)
    | (.leftOut, notices) =>
      let (active, more) := startAll? clock now rest
      (active, notices ++ more)
    | (.up r, notices) =>
      let (active, more) := startAll? clock now rest
      (active.map (r :: ·), notices ++ more)

def collect (r : Rig β) : List Event × Rig β :=
  let mailbox := r.device.mailbox
  ((mailbox.current.bind mailbox.waiting?).getD [],
    { r with device := { r.device with mailbox := mailbox.collected } })

/-- A turn of a rig: the transaction that the device is in ends, and the next one begins. -/
def turn (r : Rig β) (clock : EpochClock) (now : Instant) : List Event × Rig β × List RigNotice :=
  match r.device.transaction? with
  | none => ([], r, [])
  | some tx =>
    let (outcome, r) := r.exchange tx
    let (device, notices) := r.device.reply clock now outcome
    let (events, r) := { r with device }.collect
    (events, r, notices.map .device)

/-- Stops a rig. A transaction that the device is in ends first; without one there is no outcome to look
at. -/
def stop (r : Rig β) (clock : EpochClock) (now : Instant) : List Event × Rig β × List RigNotice :=
  let (outcome, r) := r.device.transaction?.elim (.failed .poisoned, r) r.exchange
  let (device, notices) := r.device.stop clock now outcome
  let (events, r) := { r with device }.collect
  (events, r, notices.map .device)

def each (step : Rig β → List Event × Rig β × List RigNotice) (rigs : List (Rig β)) :
    List Event × List (Rig β) × List RigNotice :=
  let done := rigs.map step
  (done.flatMap Prod.fst, done.map (·.2.1), done.flatMap (·.2.2))

/-! ## In words -/

def names (rigs : List (Rig β)) : String :=
  ",".intercalate (rigs.map (·.device.name))

def coreCount (rigs : List (Rig β)) : Nat :=
  rigs.foldr (fun r count => r.device.cores.size + count) 0

end Rig

end Hashboard
