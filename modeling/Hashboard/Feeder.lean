import Hashboard.Device

/-!
# The feeder

The feeder makes work and offers it to the devices until they push back. An item that a device refused is
held and offered again before any new one is made. When an epoch is over, the feeder advances the clock,
drops the item it holds, and has all devices drop their waiting items.
-/

namespace Hashboard

/-- Something that takes work. -/
class WorkDevice (δ : Type) where
  enqueue : δ → EpochClock → Item → Bool × δ
  flushAll : δ → EpochClock → (now : Instant) → δ × List Log.Record
  pollAt : δ → (due : Instant) → δ

instance : WorkDevice Device where
  enqueue := Device.enqueue
  flushAll d clock now :=
    let (d, notices) := d.flushAll clock now
    (d, notices.map DeviceNotice.record)
  pollAt := Device.pollAt

inductive FeederNotice where
  | refreshed (epoch : UInt64) (soft : Bool)
  deriving DecidableEq, Repr

def FeederNotice.record : FeederNotice → Log.Record
  | refreshed epoch soft =>
    let kind := if soft then "soft" else "hard"
    ⟨.info, "FEEDER", s!"epoch {epoch} ({kind} refresh)"⟩

/-- Makes work, epoch after epoch. -/
structure Feeder where
  /-- How long an epoch lasts. -/
  interval : Duration
  /-- Whether the boards may go on with work from earlier epochs. -/
  softRefresh : Bool
  /-- When the next epoch is due. -/
  nextEpoch : Instant
  /-- The number that tells the next item from the others. -/
  sequence : UInt64
  /-- The item that was refused last. -/
  held : Option Item
  generated : Nat

namespace Feeder

/-- A feeder whose first epoch ends one interval from now: none if the clock cannot show when. -/
def start? (interval : Duration) (softRefresh : Bool) (now : Instant) : Option Feeder :=
  (now.after? interval).map fun nextEpoch => ⟨interval, softRefresh, nextEpoch, 0, none, 0⟩

/-- Work whose bytes follow from the epoch, apart from a number on the wire part of the data block. -/
def workFor (epoch sequence : UInt64) : Work :=
  let data : Vector UInt8 Wire.dataLength := .ofFn fun i => UInt8.ofNat i.val * 37 + 11
  let number := (Bytes.ofNatLittle 8 sequence.toNat).toArray
  { midstate := .ofFn fun i => UInt8.ofNat i.val * 31 + 7 + epoch.toUInt8
    data := .ofFn fun i =>
      if Wire.tailOffset ≤ i.val then number.getD (i.val - Wire.tailOffset) data[i] else data[i]
    epoch := epoch }

/-- The item to offer next: the one that is held, or a new one. -/
def next (f : Feeder) (clock : EpochClock) : Item × Feeder :=
  match f.held with
  | some item => (item, { f with held := none })
  | none =>
    (⟨f.generated, workFor clock.current f.sequence⟩,
      { f with sequence := f.sequence + 1, generated := f.generated + 1 })

variable {δ : Type} [WorkDevice δ]

/-! ## Topping up -/

/-- The most items that one device is offered at a time. -/
def topUpLimit : Nat := 256

/-- Offers items to a device until it refuses one, at most as many as there is `room` for; tells how many
were taken. -/
def fill (clock : EpochClock) : (room : Nat) → Feeder → δ → Nat × Feeder × δ
  | 0, f, device => (0, f, device)
  | room + 1, f, device =>
    let (item, f) := f.next clock
    match WorkDevice.enqueue device clock item with
    | (false, device) => (0, { f with held := some item }, device)
    | (true, device) =>
      let (taken, f, device) := fill clock room f device
      (taken + 1, f, device)

/-- Fills the devices one after the other and asks those for a poll that took something; tells how many
items were taken in all. -/
def topUp (clock : EpochClock) (now : Instant) : Feeder → List δ → Nat × Feeder × List δ
  | f, [] => (0, f, [])
  | f, device :: rest =>
    let (taken, f, device) := fill clock topUpLimit f device
    let device := if taken = 0 then device else WorkDevice.pollAt device now
    let (more, f, rest) := topUp clock now f rest
    (taken + more, f, device :: rest)

/-! ## Epochs -/

/-- What comes of asking for the next epoch. -/
inductive Turnover where
  | early
  | fired
  /-- No epoch follows, or the clock cannot show when the one that follows is over. -/
  | exhausted
  deriving DecidableEq, Repr

/-- What `tick` changes. -/
structure Tick (δ : Type) where
  outcome : Turnover
  feeder : Feeder
  clock : EpochClock
  devices : List δ
  records : List Log.Record

/-- Begins the next epoch if it is due. Whether the clock can show when it is over matters only after the
held item and the waiting ones are dropped. -/
def tick (f : Feeder) (clock : EpochClock) (now : Instant) (devices : List δ) : Tick δ :=
  if now < f.nextEpoch then
    ⟨.early, f, clock, devices, []⟩
  else
    match clock.next? f.softRefresh with
    | none => ⟨.exhausted, f, clock, devices, []⟩
    | some clock =>
      let flushed := devices.map fun device => WorkDevice.flushAll device clock now
      let f := { f with held := none }
      let devices := flushed.map Prod.fst
      let records := flushed.flatMap Prod.snd
      match now.after? f.interval with
      | none => ⟨.exhausted, f, clock, devices, records⟩
      | some nextEpoch =>
        ⟨.fired, { f with nextEpoch }, clock, devices,
          records ++ [(FeederNotice.refreshed clock.current f.softRefresh).record]⟩

end Feeder

end Hashboard
