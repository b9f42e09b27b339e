import Hashboard.Program

/-!
# The command

Runs the program on the words of the command line, with the clock and the streams of the machine.
-/

namespace Hashboard.Program

def emit (output : Output) : IO Unit :=
  output.forM fun (stream, line) => match stream with
    | .out => IO.println line
    | .err => IO.eprintln line

def readClock : IO Instant := do
  let nanos ← IO.monoNanosNow
  return nanos

partial def drive (l : DispatchLoop Simulator) : IO (LoopEnd × DispatchLoop Simulator) := do
  let (result, l, records) := l.pass (← readClock)
  emit (Log.lines l.settings.logLimit records)
  match result with
  | .error how => return (how, l)
  | .ok wait =>
    IO.sleep (UInt32.ofNat (wait / Duration.ofMillis 1))
    drive l

/-- Writes the report to the file that the settings name, if they name one; returns what went wrong. -/
def save (s : Settings) (report : Report) : IO (Option Cause) := do
  let some path := s.statsOutput | return none
  try
    IO.FS.writeFile path report.text
    return none
  catch e => return some ((Path.writeError? path).getD (.other e.toString))

def runOn (words : List String) : IO UInt32 := do
  let code (exit : Exit) : UInt32 := UInt32.ofNat exit.code
  let (settings, output) := settings words
  emit output
  let s ← match settings with
    | .error exit => return code exit
    | .ok s => pure s
  let (started, output) := start s (← readClock)
  emit output
  let l ← match started with
    | .error exit => return code exit
    | .ok l => pure l
  let (how, l) ← drive l
  let (finished, output) := finish l how (← readClock)
  emit output
  match finished with
  | .error exit => return code exit
  | .ok report =>
    let (exit, output) := conclude s (← save s report)
    emit output
    return code exit

end Hashboard.Program

def main (words : List String) : IO UInt32 :=
  Hashboard.Program.runOn words
