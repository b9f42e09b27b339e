import Hashboard.Event
import Hashboard.InFlight
import Hashboard.Log

/-!
# Dispatch of replies

Each record of a reply becomes one event. A record about an item that is not in flight, or from a core
that is not on the map, is a hardware error; finished work leaves the table in any case.
-/

namespace Hashboard

/-- How the records of a reply were sorted. The counters have thirty-two bits. -/
structure DispatchSummary where
  nonces : UInt32
  completed : UInt32
  /-- Records about no item in flight. -/
  unknown : UInt32
  /-- Records from no core on the map. -/
  unresolved : UInt32
  deriving DecidableEq, Repr

def DispatchSummary.zero : DispatchSummary := ⟨0, 0, 0, 0⟩

inductive DispatchNotice where
  | slot (device : String) (bytes : List UInt8)
  | unknownCore (device : String) (kind : ReplyKind) (address : CoreAddress)
  | unknownWork (device : String) (origin : Option String) (kind : ReplyKind) (id : UInt16)
  deriving DecidableEq, Repr

def DispatchNotice.record : DispatchNotice → Log.Record
  | slot device bytes =>
    ⟨.debug, "DISPATCH", s!"{device}: RECV: {Bytes.hex bytes}"⟩
  | unknownCore device kind address =>
    ⟨.warn, "DISPATCH",
      s!"{device}: {kind.label} reply from unknown core asic={address.asic} core={address.core}"⟩
  | unknownWork device origin kind id =>
    let place := origin.getD "?"
    let shown := Bytes.hexNat 4 id.toNat
    ⟨.warn, "DISPATCH",
      s!"{device}: {place}: got {kind.label} message about unknown work 0x{shown}"⟩

/-- The state of a dispatch: what was sorted so far, and the table as it is by now. -/
structure Dispatched where
  table : InFlight
  summary : DispatchSummary
  events : Array Event
  notices : Array DispatchNotice

namespace Dispatched

def start (table : InFlight) : Dispatched :=
  ⟨table, .zero, #[], #[]⟩

def note (d : Dispatched) (notice : DispatchNotice) : Dispatched :=
  { d with notices := d.notices.push notice }

def report (d : Dispatched) (event : Event) : Dispatched :=
  { d with events := d.events.push event }

def count (d : Dispatched) (f : DispatchSummary → DispatchSummary) : Dispatched :=
  { d with summary := f d.summary }

def record (d : Dispatched) (device : String) (cores : CoreMap) (r : ReplyRecord) : Dispatched :=
  let core := cores.resolve r.address
  let d := if core.isSome then d else
    (d.count fun s => { s with unresolved := s.unresolved + 1 }).note
      (.unknownCore device r.kind r.address)
  match d.table.get? r.id, r.kind, core with
  | none, _, _ =>
    ((d.count fun s => { s with unknown := s.unknown + 1 }).note
      (.unknownWork device (core.map cores.label) r.kind r.id)).report
        (.hardwareError core (if r.kind = .nonce then some r.nonce else none))
  | some item, .nonce, some core =>
    (d.count fun s => { s with nonces := s.nonces + 1 }).report (.nonce core item r.nonce)
  | some _, .nonce, none =>
    d.report (.hardwareError none (some r.nonce))
  | some _, .done, some core =>
    let d := { d with table := (d.table.remove r.id).2 }
    (d.count fun s => { s with completed := s.completed + 1 }).report
      (.completed core Wire.hashesPerWork)
  | some _, .done, none =>
    let d := { d with table := (d.table.remove r.id).2 }
    d.report (.hardwareError none none)

/-- Sorts one slot: an empty one brings nothing. -/
def slot (d : Dispatched) (device : String) (cores : CoreMap) (bytes : List UInt8) : Dispatched :=
  let d := if ReplyRecord.slotTag bytes = 0 then d else d.note (.slot device bytes)
  match ReplyRecord.decode? bytes with
  | none => d
  | some r => d.record device cores r

end Dispatched

def dispatch (device : String) (cores : CoreMap) (table : InFlight) (rx : List UInt8) : Dispatched :=
  (Reply.slots rx).foldl (fun d bytes => d.slot device cores bytes) (.start table)

end Hashboard
