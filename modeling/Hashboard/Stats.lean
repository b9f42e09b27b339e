import Hashboard.Event
import Hashboard.HashRate
import Hashboard.Log
import Hashboard.Time

/-!
# Statistics

A run counts what its devices report. A device that gives up ends the run.
-/

namespace Hashboard

inductive RunError where
  | deviceFailed (device message : String)
  /-- No device is left to report anything. -/
  | eventsClosed
  deriving DecidableEq, Repr

def RunError.message : RunError → String
  | deviceFailed device message => s!"device '{device}' reported error: {message}"
  | eventsClosed => "device event channel closed"

inductive EventNotice where
  | nonce (core : CoreId) (nonce : UInt32) (epoch : UInt64)
  | hardwareError (core : Option CoreId) (nonce : Option UInt32)
  deriving DecidableEq, Repr

def EventNotice.record (notice : EventNotice) : Log.Record :=
  let shown (n : UInt32) := Bytes.hexNat 8 n.toNat
  match notice with
  | nonce core n epoch =>
    let found := shown n
    ⟨.debug, "KNC_MINER", s!"{core.name}: nonce {found} for epoch {epoch}"⟩
  | hardwareError core n =>
    let place := core.elim "?" CoreId.name
    let found := n.elim "" fun n => ", nonce " ++ shown n
    ⟨.debug, "KNC_MINER", s!"{place}: hardware error{found}"⟩

structure Stats where
  startedAt : Instant
  hashes : UInt64
  nonces : Nat
  completed : Nat
  hardwareErrors : Nat
  deriving DecidableEq, Repr

namespace Stats

def start (now : Instant) : Stats :=
  ⟨now, 0, 0, 0, 0⟩

def count (s : Stats) : Event → Except RunError Stats
  | .nonce .. => .ok { s with nonces := s.nonces + 1 }
  | .completed _ hashes =>
    .ok { s with completed := s.completed + 1, hashes := s.hashes + hashes }
  | .hardwareError .. => .ok { s with hardwareErrors := s.hardwareErrors + 1 }
  | .error device message => .error (.deviceFailed device message)

def notices : Event → List EventNotice
  | .nonce core item nonce => [.nonce core nonce item.epoch]
  | .hardwareError core nonce => [.hardwareError core nonce]
  | .completed .. | .error .. => []

/-- Counts events up to the first one that ends the run; returns the events behind it, too. -/
def countAll (s : Stats) : List Event → Except RunError Unit × Stats × List Event
  | [] => (.ok (), s, [])
  | event :: rest =>
    match s.count event with
    | .ok s => countAll s rest
    | .error e => (.error e, s, rest)

/-- The line that sums up a run, some time after it began. -/
def summary (s : Stats) (elapsed : Duration) : Log.Record :=
  let secs := elapsed.divisor
  let shown := (Binary.ofFloat secs).fixedText 1
  let rate := HashRate.text (s.hashes.toFloat / secs)
  let counts := s!"nonces={s.nonces} completed={s.completed} hw_errors={s.hardwareErrors}"
  ⟨.info, "KNC_MINER", s!"{shown}s elapsed | {rate} | {counts}"⟩

end Stats

end Hashboard
