import Hashboard.Control
import Hashboard.Log
import Hashboard.Time
import Hashboard.Wire

/-!
# Settings

What a run is to do. The options are what the command line says; the settings are options that have been
checked, with the slaves to probe filled in.
-/

namespace Hashboard

/-- What the boards hang on. -/
inductive BusKind where
  /-- A bus of the machine, whose boards are found on the control bus. -/
  | spidev
  | sim
  deriving DecidableEq, Repr

namespace BusKind

def named : List (String × BusKind) :=
  [("spidev", spidev), ("sim", sim)]

def name : BusKind → String
  | spidev => "spidev"
  | sim => "sim"

end BusKind

/-- The simulated devices of a run. -/
structure Simulation where
  devices : UInt8
  /-- The boards of each device. -/
  boards : UInt8
  queueDepth : UInt16
  completions : Nat
  deriving DecidableEq, Repr

structure Options where
  bus : BusKind
  spidev : String
  spiSpeed : Nat
  i2c : String
  slaves : List UInt16
  pollMicros : Nat
  statsSecs : Nat
  durationSecs : Option Nat
  epochSecs : Nat
  softRefresh : Bool
  simulation : Simulation
  statsOutput : Option String
  logLimit : Log.Limit
  debug : Bool
  deriving DecidableEq, Repr

def Options.standard : Options where
  bus := .spidev
  spidev := "/dev/spidev1.0"
  spiSpeed := Wire.spiSpeedHz
  i2c := "/dev/i2c-2"
  slaves := []
  pollMicros := Wire.pollIntervalMicros
  statsSecs := 10
  durationSecs := none
  epochSecs := 30
  softRefresh := false
  simulation := ⟨1, 1, 16, 4⟩
  statsOutput := none
  logLimit := some .info
  debug := false

inductive SettingsError where
  | zeroPollInterval
  | zeroStatsInterval
  | zeroEpochInterval
  | zeroSpeed
  | slaveOutsideRange (slave : UInt16)
  | boardCount
  | deviceCount
  | zeroQueueDepth
  deriving DecidableEq, Repr

structure Settings where
  bus : BusKind
  spidev : String
  spiSpeed : Nat
  i2c : String
  slaves : List UInt16
  /-- The pause between polls, in microseconds. -/
  pollMicros : Nat
  statsInterval : Duration
  duration : Option Duration
  epochInterval : Duration
  softRefresh : Bool
  simulation : Simulation
  statsOutput : Option String
  logLimit : Log.Limit
  deriving DecidableEq, Repr

namespace Settings

/-- The addresses that boards can have. -/
def boardSlaves : List UInt16 :=
  (List.range (Wire.lastBoardSlave - Wire.firstBoardSlave + 1).toNat).map fun n =>
    Wire.firstBoardSlave + UInt16.ofNat n

def maxDevices : Nat := 8

end Settings

def SettingsError.message : SettingsError → String
  | zeroPollInterval => "--poll-interval-us must be at least 1"
  | zeroStatsInterval => "--stats-secs must be at least 1"
  | zeroEpochInterval => "--epoch-secs must be at least 1"
  | zeroSpeed => "--spi-speed must be non-zero"
  | slaveOutsideRange slave =>
    let hexText (n : UInt16) := ControlError.hexText n.toNat
    "slave " ++ hexText slave ++ " is outside " ++ hexText Wire.firstBoardSlave ++ "..="
      ++ hexText Wire.lastBoardSlave
  | boardCount => s!"--sim-boards must be between 1 and {Settings.boardSlaves.length}"
  | deviceCount => s!"--sim-devices must be between 1 and {Settings.maxDevices}"
  | zeroQueueDepth => "--sim-queue-depth must be at least 1"

namespace Settings

/-- What stands in the way of the options, the first thing of several. -/
def error? (o : Options) (slaves : List UInt16) : Option SettingsError :=
  if o.pollMicros = 0 then some .zeroPollInterval
  else if o.statsSecs = 0 then some .zeroStatsInterval
  else if o.epochSecs = 0 then some .zeroEpochInterval
  else if o.spiSpeed = 0 then some .zeroSpeed
  else match slaves.find? fun slave => !boardSlaves.contains slave with
    | some slave => some (.slaveOutsideRange slave)
    | none =>
      if o.simulation.boards = 0 ∨ boardSlaves.length < o.simulation.boards.toNat then
        some .boardCount
      else if o.simulation.devices = 0 ∨ maxDevices < o.simulation.devices.toNat then
        some .deviceCount
      else if o.simulation.queueDepth = 0 then some .zeroQueueDepth
      else none

/-- Checks options. Without slaves, all addresses that boards can have are probed. -/
def ofOptions (o : Options) : Except SettingsError Settings :=
  let slaves := if o.slaves.isEmpty then boardSlaves else o.slaves
  match error? o slaves with
  | some e => .error e
  | none => .ok {
      bus := o.bus
      spidev := o.spidev
      spiSpeed := o.spiSpeed
      i2c := o.i2c
      slaves := slaves
      pollMicros := o.pollMicros
      statsInterval := .ofSecs o.statsSecs
      duration := o.durationSecs.map .ofSecs
      epochInterval := .ofSecs o.epochSecs
      softRefresh := o.softRefresh
      simulation := o.simulation
      statsOutput := o.statsOutput
      logLimit := if o.debug then some .debug else o.logLimit }

def busLabel (s : Settings) : String :=
  match s.bus with
  | .spidev => s!"spidev {s.spidev}"
  | .sim => s!"sim ({s.simulation.devices} devices x {s.simulation.boards} boards)"

end Settings

end Hashboard
