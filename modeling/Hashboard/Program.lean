import Hashboard.Banner
import Hashboard.CommandLine
import Hashboard.Discovery
import Hashboard.DispatchLoop

/-!
# The program

The program reads its command line, connects and starts the devices, runs the dispatch loop, and sums up.
What it prints is a list of lines, each with its stream.
-/

namespace Hashboard

inductive Exit where
  | success
  | fatal
  | usage (error : UsageError)
  /-- No epoch is left, the clock cannot show a time that the run needs, the samples have no order, or a
  device crashed. -/
  | crashed
  deriving DecidableEq, Repr

def Exit.code : Exit → Nat
  | success | usage .displayHelp | usage .displayVersion => 0
  | fatal => 1
  | usage _ => 2
  | crashed => 101

/-- Lines for the two output streams, in order. -/
abbrev Output : Type := List (Log.Stream × String)

namespace Program

def name : String := "knc-miner"
def version : String := "0.1.0"

/-! ## Settings -/

/-- The line that says why the program gives up. -/
def fatalLine (message : String) : Output :=
  [(.err, s!"fatal: {message}")]

def help : Output :=
  let arguments := Argument.named.map fun (word, argument) =>
    if argument.isFlag then s!"  --{word}" else s!"  --{word} <value>"
  (s!"Usage: {name} [options]" :: "" :: "Options:" :: arguments).map (.out, ·)

def settings (words : List String) : Except Exit Settings × Output :=
  match CommandLine.read words with
  | .error .displayVersion => (.error (.usage .displayVersion), [(.out, s!"{name} {version}")])
  | .error .displayHelp => (.error (.usage .displayHelp), help)
  | .error e => (.error (.usage e), [(.err, s!"error: {e.message}")])
  | .ok options =>
    match Settings.ofOptions options with
    | .error e => (.error .fatal, fatalLine e.message)
    | .ok settings => (.ok settings, [])

/-! ## Devices -/

/-- Tries to connect the boards on a bus of the machine. The machine has no such bus, so this fails. -/
def connectMachine (s : Settings) : String × List Log.Record :=
  match Adapter.openControl s.i2c with
  | .error e => (s!"failed to open control bus {s.i2c}: {e.fullMessage}", [])
  | .ok adapter =>
    let (found, notices, _) := Discovery.discover adapter s.slaves .empty
    let message := match found with
      | .error e => s!"board discovery on {adapter.path} failed: {e.message}"
      | .ok _ => s!"failed to open {s.spidev}: {(Adapter.openError s.spidev).fullMessage}"
    (message, notices.map DiscoveryNotice.record)

def connect (s : Settings) : Except String (List (Rig Simulator)) × List Log.Record :=
  match s.bus with
  | .sim => ((Rig.simulated s.simulation s.pollMicros).mapError CoreMapError.message, [])
  | .spidev =>
    let (message, records) := connectMachine s
    (.error message, records)

/-- What comes of starting some rigs. -/
inductive Activation (β : Type) where
  | active (rigs : List (Rig β))
  | failed (message : String)
  | crashed

/-- Starts rigs; it takes at least one that comes up. -/
def activate {β : Type} [Bus β] (rigs : List (Rig β)) (clock : EpochClock) (now : Instant) :
    Activation β × List Log.Record :=
  let (active, notices) := Rig.startAll? clock now rigs
  let result := match active with
    | none => .crashed
    | some [] => .failed "no device could be started"
    | some active => .active active
  (result, notices.map RigNotice.record)

def banner {β : Type} (s : Settings) (rigs : List (Rig β)) : Output :=
  let epochSecs := s.epochInterval / Duration.ofSecs 1
  (Banner.lines name "KnC ASIC work dispatch" [
    ("bus", s.busLabel),
    ("devices", Rig.names rigs),
    ("cores", toString (Rig.coreCount rigs)),
    ("poll", s!"{s.pollMicros}us"),
    ("epoch", s!"{epochSecs}s"),
    ("refresh", if s.softRefresh then "soft" else "hard")]).map (.out, ·)

/-! ## Start and end of a run -/

def clock : EpochClock := .start 1

/-- Connects and starts the devices and begins the dispatch loop. -/
def start (s : Settings) (now : Instant) : Except Exit (DispatchLoop Simulator) × Output :=
  let lines := Log.lines s.logLimit
  match connect s with
  | (.error message, records) => (.error .fatal, lines records ++ fatalLine message)
  | (.ok rigs, records) =>
    match activate rigs clock now with
    | (.crashed, more) => (.error .crashed, lines (records ++ more))
    | (.failed message, more) => (.error .fatal, lines (records ++ more) ++ fatalLine message)
    | (.active active, more) =>
      let output := lines (records ++ more) ++ banner s active
      match DispatchLoop.start? s clock active now with
      | none => (.error .crashed, output)
      | some l => (.ok l, output)

/-- Stops the devices and counts the events that are left: the report, or how the program ends without
one. -/
def finish (l : DispatchLoop Simulator) (how : LoopEnd) (now : Instant) :
    Except Exit Report × Output :=
  let (events, rigs, notices) := Rig.each (·.stop l.clock now) l.rigs
  let lines (records : List Log.Record) := Log.lines l.settings.logLimit records
  let stopped := lines (notices.map RigNotice.record)
  match how with
  | .exhausted => (.error .crashed, [])
  | .failed e => (.error .fatal, stopped ++ fatalLine e.message)
  | .ended =>
    let inbox := l.inbox ++ events
    let (result, stats, left) := l.stats.countAll inbox
    let counted := lines ((inbox.take (inbox.length - left.length)).flatMap fun event =>
      (Stats.notices event).map EventNotice.record)
    match result with
    | .error e => (.error .fatal, stopped ++ counted ++ fatalLine e.message)
    | .ok () =>
      let elapsed := now.since stats.startedAt
      let output := stopped ++ counted ++ lines [stats.summary elapsed]
      match Report.make? l.settings elapsed l.clock stats l.feeder l.samples (rigs.map Rig.device) with
      | none => (.error .crashed, output)
      | some (report, notices) =>
        (.ok report, output ++ lines (notices.map ThermalNotice.record ++ [report.summary]))

/-- The last lines, after the report was written to its file or could not be. -/
def conclude (s : Settings) (failure : Option Cause) : Exit × Output :=
  match s.statsOutput, failure with
  | some path, some cause => (.fatal, fatalLine (Report.writeError path cause))
  | file, _ =>
    let wrote := file.toList.map fun path => ⟨.info, "KNC_MINER", s!"wrote report to {path}"⟩
    (.success, Log.lines s.logLimit (wrote ++ [⟨.info, "KNC_MINER", s!"{name} stopped"⟩]))

/-! ## A whole run -/

/-- What a run of the program leaves behind. -/
structure Result where
  exit : Exit
  output : Output
  file : Option (String × String)

/-- Runs the program up to its deadline, as if nothing took time but waiting. A run that goes on for ever
counts as one that its clock ends. -/
def run (words : List String) (now : Instant) : Result :=
  match settings words with
  | (.error exit, output) => ⟨exit, output, none⟩
  | (.ok s, _) =>
    match start s now with
    | (.error exit, output) => ⟨exit, output, none⟩
    | (.ok l, started) =>
      let (how, l, now, records) := l.run (l.passesLeft now) now
      let started := started ++ Log.lines s.logLimit records
      match finish l (how.getD .exhausted) now with
      | (.error exit, output) => ⟨exit, started ++ output, none⟩
      | (.ok report, output) =>
        let failure := s.statsOutput.bind Path.writeError?
        let (exit, last) := conclude s failure
        let file := if failure.isSome then none else s.statsOutput.map (·, report.text)
        ⟨exit, started ++ output ++ last, file⟩

end Program

end Hashboard
