import Hashboard.Decimal.Shortest
import Hashboard.Feeder
import Hashboard.Json.Decoder
import Hashboard.Json.Encode
import Hashboard.Json.Printer
import Hashboard.Path
import Hashboard.Settings
import Hashboard.Stats
import Hashboard.Thermal

/-!
# The report of a run

What a run came to, as a value and as a JSON document.
-/

namespace Hashboard

structure DeviceReport where
  name : String
  cores : Nat
  enabledCores : Nat
  queueCapacity : Nat
  counts : QueueCounts
  droppedEvents : Nat
  deriving Repr

/-- What a run came to. Rates are in hashes per second. -/
structure Report where
  bus : String
  elapsedSecs : Float
  epochs : Nat
  workGenerated : Nat
  hashes : Nat
  nonces : Nat
  completed : Nat
  hardwareErrors : Nat
  mean : Float
  median : Float
  least : Float
  greatest : Float
  samples : List Float
  /-- The temperatures of the boards, in degrees. -/
  temperatures : List (UInt8 × Float32)
  devices : List DeviceReport
  deriving Repr

/-! ## Making a report -/

def DeviceReport.ofDevice (d : Device) : DeviceReport where
  name := d.name
  cores := d.cores.size
  enabledCores := d.cores.enabledCount
  queueCapacity := d.capacity
  counts := d.counts
  droppedEvents := d.mailbox.dropped

namespace Report

/-- The temperatures of the boards, and what there is to say about those without one. Only boards on a bus
of the machine have thermometers. -/
def readTemperatures (settings : Settings) (devices : List Device) :
    List (UInt8 × Temperature) × List ThermalNotice :=
  match settings.bus with
  | .sim => ([], [])
  | .spidev =>
    let read := devices.map fun d => Thermal.readAll d.cores.asics
    (read.flatMap Prod.fst, read.flatMap Prod.snd)

/-- Writes the report on a run; none if its samples have no order. -/
def make? (settings : Settings) (elapsed : Duration) (clock : EpochClock) (stats : Stats)
    (feeder : Feeder) (samples : List Float) (devices : List Device) :
    Option (Report × List ThermalNotice) := do
  let sorted ← HashRate.sorted? samples
  let (temperatures, notices) := readTemperatures settings devices
  let report : Report := {
    bus := settings.busLabel
    elapsedSecs := elapsed.toSecs
    epochs := clock.current.toNat
    workGenerated := feeder.generated
    hashes := stats.hashes.toNat
    nonces := stats.nonces
    completed := stats.completed
    hardwareErrors := stats.hardwareErrors
    mean := HashRate.mean sorted
    median := HashRate.median sorted
    least := sorted.headD 0
    greatest := sorted.getLastD 0
    samples := samples
    temperatures := temperatures.map fun (asic, t) => (asic, t.halves.toFloat32 / 2)
    devices := devices.map .ofDevice }
  return (report, notices)

/-- The report without the items that its devices refused: their count hangs on how often the devices were
asked. -/
def withoutRejected (r : Report) : Report :=
  { r with devices := r.devices.map fun d => { d with counts := { d.counts with rejected := 0 } } }

def summary (r : Report) : Log.Record :=
  let mean := HashRate.text r.mean
  let median := HashRate.text r.median
  let least := HashRate.text r.least
  let greatest := HashRate.text r.greatest
  ⟨.info, "KNC_MINER", s!"summary | avg={mean} | median={median} | min={least} | max={greatest}"⟩

end Report

/-! ## The document -/

namespace Report

/-- Numbers of 64 bits are written positionally from a hundred-thousandth up to sixteen digits. -/
def doubleLayout : Decimal.Layout := ⟨-5, 15⟩

/-- Numbers of 32 bits are written positionally from a millionth up to thirteen digits. -/
def singleLayout : Decimal.Layout := ⟨-6, 12⟩

/-- A number in the document; a number that is not finite has no place there. -/
def real (layout : Decimal.Layout) (format : BinaryFormat) (x : Binary) : Json :=
  (Decimal.shortestText? format layout x).elim .null .number

instance : ToJson Float := ⟨fun x => real doubleLayout .double (.ofFloat x)⟩
instance : ToJson Float32 := ⟨fun x => real singleLayout .single (.ofFloat32 x)⟩

end Report

def DeviceReport.names : List String :=
  ["name", "cores", "enabled_cores", "queue_capacity", "enqueued", "rejected", "pruned", "flushed",
    "dropped_events"]

instance : ToJson DeviceReport where
  toJson d := .object (DeviceReport.names.zip [
    toJson d.name, toJson d.cores, toJson d.enabledCores, toJson d.queueCapacity,
    toJson d.counts.enqueued, toJson d.counts.rejected, toJson d.counts.pruned,
    toJson d.counts.flushed, toJson d.droppedEvents])

def Report.names : List String :=
  ["bus", "elapsed_secs", "epochs", "work_generated", "hashes", "nonces", "completed",
    "hardware_errors", "avg_hps", "median_hps", "min_hps", "max_hps", "samples_hps", "temperatures",
    "devices"]

instance : ToJson Report where
  toJson r := .object (Report.names.zip [
    toJson r.bus, toJson r.elapsedSecs, toJson r.epochs, toJson r.workGenerated, toJson r.hashes,
    toJson r.nonces, toJson r.completed, toJson r.hardwareErrors, toJson r.mean, toJson r.median,
    toJson r.least, toJson r.greatest, toJson r.samples, toJson r.temperatures, toJson r.devices])

def Report.text (r : Report) : String :=
  (toJson r).pretty

/-! ## Reading a document -/

open Json.Decoder (field named)

def DeviceReport.decoder : Json.Decoder DeviceReport := named DeviceReport.names do
  return {
    name := ← field "name"
    cores := ← field "cores"
    enabledCores := ← field "enabled_cores"
    queueCapacity := ← field "queue_capacity"
    counts := ⟨← field "enqueued", ← field "rejected", ← field "pruned", ← field "flushed"⟩
    droppedEvents := ← field "dropped_events" }

instance : OfJson DeviceReport := ⟨fun document => (DeviceReport.decoder document).toOption⟩

def Report.decoder : Json.Decoder Report := named Report.names do
  return {
    bus := ← field "bus"
    elapsedSecs := ← field "elapsed_secs"
    epochs := ← field "epochs"
    workGenerated := ← field "work_generated"
    hashes := ← field "hashes"
    nonces := ← field "nonces"
    completed := ← field "completed"
    hardwareErrors := ← field "hardware_errors"
    mean := ← field "avg_hps"
    median := ← field "median_hps"
    least := ← field "min_hps"
    greatest := ← field "max_hps"
    samples := ← field "samples_hps"
    temperatures := ← field "temperatures"
    devices := ← field "devices" }

instance : OfJson Report := ⟨fun document => (Report.decoder document).toOption⟩

def Report.writeError (path : String) (cause : Cause) : String :=
  s!"failed to write run report {path}: {cause.message}"

end Hashboard
