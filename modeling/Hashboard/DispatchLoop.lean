import Hashboard.Report
import Hashboard.Rig

/-!
# The dispatch loop

The loop runs in passes. In each pass it begins a new epoch if one is due, tops up the devices, and takes
a sample of the hash rate if one is due. Then it counts an event if there is one; else it waits, though
not beyond the next thing that is due, and meanwhile every rig has a turn.
-/

namespace Hashboard

/-! ## Waiting -/

def minEventWait : Duration := .ofMillis 1

def maxEventWait : Duration := .ofMillis 200

def eventWait (now nextEpoch nextSample : Instant) (deadline : Option Instant) (pollMicros : Nat) :
    Duration :=
  let due := min nextEpoch nextSample
  let due := deadline.elim due (min due)
  max minEventWait (min (due.since now) (min (.ofMicros pollMicros) maxEventWait))

/-! ## The state of a run -/

/-- What the loop keeps from pass to pass. -/
structure DispatchLoop (β : Type) where
  settings : Settings
  /-- When the run is over, if it ends by itself. -/
  deadline : Option Instant
  clock : EpochClock
  rigs : List (Rig β)
  stats : Stats
  feeder : Feeder
  samples : List Float
  lastSample : Instant
  /-- The hashes counted up to the last sample. -/
  lastHashes : UInt64
  /-- The events to count, oldest first. -/
  inbox : List Event
  /-- Whether more events may come. -/
  connected : Bool

inductive LoopEnd where
  | ended
  | failed (error : RunError)
  /-- No epoch is left, or the clock cannot show a time that the loop needs. -/
  | exhausted
  deriving DecidableEq, Repr

namespace DispatchLoop

variable {β : Type} [Bus β]

/-- A loop that begins now: none if the clock cannot show when its first epoch or the run is over. -/
def start? (settings : Settings) (clock : EpochClock) (rigs : List (Rig β)) (now : Instant) :
    Option (DispatchLoop β) := do
  let feeder ← Feeder.start? settings.epochInterval settings.softRefresh now
  let deadline ← match settings.duration with
    | none => some none
    | some span => (now.after? span).map some
  return {
    settings, deadline, clock, rigs, feeder
    stats := .start now
    samples := []
    lastSample := now
    lastHashes := 0
    inbox := []
    connected := true }

def isOver (l : DispatchLoop β) (now : Instant) : Bool :=
  l.deadline.any (· ≤ now)

/-! ## A pass -/

/-- Begins a new epoch if one is due, and tops up the devices; tells whether the run can go on. -/
def feed (l : DispatchLoop β) (now : Instant) : Bool × DispatchLoop β × List Log.Record :=
  let tick := l.feeder.tick l.clock now l.rigs
  let l := { l with clock := tick.clock, feeder := tick.feeder, rigs := tick.devices }
  if tick.outcome = .exhausted then
    (false, l, tick.records)
  else
    let (_, feeder, rigs) := l.feeder.topUp l.clock now l.rigs
    (true, { l with feeder, rigs }, tick.records)

def temperatures (l : DispatchLoop β) : List Log.Record :=
  match l.settings.bus with
  | .sim => []
  | .spidev => l.rigs.flatMap fun r =>
    let (readings, notices) := Thermal.readAll r.device.cores.asics
    notices.map ThermalNotice.record ++ readings.map fun (asic, t) =>
      ⟨.info, "KNC_MINER", s!"{r.device.name}: asic {asic} at {t.text}C"⟩

/-- Takes a sample if one is due. -/
def sample (l : DispatchLoop β) (now : Instant) : DispatchLoop β × List Log.Record :=
  let elapsed := now.since l.lastSample
  if elapsed < l.settings.statsInterval then
    (l, [])
  else
    let hashes := l.stats.hashes
    let gained := if hashes < l.lastHashes then 0 else hashes - l.lastHashes
    ({ l with
        samples := l.samples ++ [gained.toFloat / elapsed.divisor]
        lastSample := now
        lastHashes := hashes },
      l.stats.summary (now.since l.stats.startedAt) :: l.temperatures)

def turn (l : DispatchLoop β) (now : Instant) : DispatchLoop β × List Log.Record :=
  let (events, rigs, notices) := Rig.each (·.turn l.clock now) l.rigs
  ({ l with rigs, inbox := l.inbox ++ events }, notices.map RigNotice.record)

/-- Counts the first event, or waits for one; returns how long it waits, or how the loop ends. -/
def await (l : DispatchLoop β) (now nextSample : Instant) :
    Except LoopEnd Duration × DispatchLoop β × List Log.Record :=
  match l.inbox with
  | event :: rest =>
    let records := (Stats.notices event).map EventNotice.record
    let l := { l with inbox := rest }
    match l.stats.count event with
    | .ok stats => (.ok 0, { l with stats }, records)
    | .error e => (.error (.failed e), l, records)
  | [] =>
    if l.connected then
      let wait := eventWait now l.feeder.nextEpoch nextSample l.deadline l.settings.pollMicros
      let (l, records) := l.turn now
      (.ok wait, l, records)
    else
      (.error (.failed .eventsClosed), l, [])

def pass (l : DispatchLoop β) (now : Instant) :
    Except LoopEnd Duration × DispatchLoop β × List Log.Record :=
  if l.isOver now then
    (.error .ended, l, [])
  else
    match l.feed now with
    | (false, l, fed) => (.error .exhausted, l, fed)
    | (true, l, fed) =>
      let (l, sampled) := l.sample now
      match l.lastSample.after? l.settings.statsInterval with
      | none => (.error .exhausted, l, fed ++ sampled)
      | some nextSample =>
        let (result, l, records) := l.await now nextSample
        (result, l, fed ++ sampled ++ records)

/-! ## A run -/

/-- What a loop comes to if nothing takes time but its waits: how it ends, unless it goes on beyond
`passes`, and when. -/
def run : (passes : Nat) → DispatchLoop β → (now : Instant) →
    Option LoopEnd × DispatchLoop β × Instant × List Log.Record
  | 0, l, now => (none, l, now, [])
  | passes + 1, l, now =>
    match l.pass now with
    | (.error how, l, records) => (some how, l, now, records)
    | (.ok wait, l, records) =>
      let (how, l, now, more) := run passes l (now + wait)
      (how, l, now, records ++ more)

/-- The passes that a loop has time for before its deadline: each event takes one, and each wait takes a
millisecond at least. -/
def passesLeft (l : DispatchLoop β) (now : Instant) : Nat :=
  l.inbox.length + 2 + l.deadline.elim 0 fun deadline => deadline.since now / minEventWait

end DispatchLoop

end Hashboard
