import Hashboard.CommandLine
import Hashboard.Control.Simulated
import Hashboard.DispatchLoop
import Hashboard.StandIn

/-!
# Values in documents

How the values of this library are put into JSON documents and read from them, apart from the report,
which has a module of its own. Byte strings are hexadecimal texts.
-/

namespace Hashboard

open Json.Decoder (field fieldD has inner each)

def Json.entry {α : Type} [ToJson α] (name : String) (a : α) : String × Json :=
  (name, toJson a)

open Json (entry)

/-! ## Errors -/

def Json.failure (kind message : String) : Json.Fields :=
  [entry "error" kind, entry "message" message]

def BusError.kind : BusError → String
  | cannotOpen .. => "Open"
  | cannotConfigure .. => "Configure"
  | transfer _ => "Transfer"
  | lengthMismatch .. => "LengthMismatch"
  | poisoned => "Poisoned"

def BusError.fields (e : BusError) : Json.Fields :=
  entry "source" (e.cause?.map Cause.message) :: Json.failure e.kind e.message

def ControlError.kind : ControlError → String
  | cannotOpen .. => "Open"
  | selectFailed .. => "SelectSlave"
  | readFailed .. => "Read"
  | shortBlock .. => "ShortBlock"

def ControlError.fields (e : ControlError) : Json.Fields :=
  entry "source" (e.cause?.map Cause.message) :: Json.failure e.kind e.message

def UsageError.kind : UsageError → String
  | invalidValue => "InvalidValue"
  | valueValidation => "ValueValidation"
  | unknownArgument => "UnknownArgument"
  | argumentConflict => "ArgumentConflict"
  | tooManyValues => "TooManyValues"
  | displayHelp => "DisplayHelp"
  | displayVersion => "DisplayVersion"

/-! ## Bytes -/

instance : ToJson (List UInt8) := ⟨fun bytes => .string (Bytes.hex bytes)⟩

/-- Bytes are given as a text, or as a byte and how often it is repeated. -/
def Bytes.piece? : Json → Option (List UInt8)
  | .string text => Bytes.ofHex? text
  | v => do
    let (byte, count) ← ofJson? v
    return List.replicate count byte

instance : OfJson (List UInt8) where
  ofJson?
    | .array pieces => List.flatten <$> pieces.mapM Bytes.piece?
    | v => Bytes.piece? v

/-- The fields that describe a long buffer: its length, and what stands in front of the filler at its end. -/
def Bytes.fields (filler : UInt8) (bytes : List UInt8) : Json.Fields :=
  [entry "len" bytes.length, entry "head" (bytes.reverse.dropWhile (· == filler)).reverse]

/-! ## Numbers -/

/-- A floating-point number, also one that no number of a document stands for. -/
structure AnyFloat where
  value : Float

instance : OfJson AnyFloat where
  ofJson?
    | .string "NaN" => some ⟨0 / 0⟩
    | .string "inf" => some ⟨1 / 0⟩
    | .string "-inf" => some ⟨-1 / 0⟩
    | .string "-0" => some ⟨-0⟩
    | v => v.float?.map AnyFloat.mk

/-! ## The wire -/

def Wire.fields : Json.Fields :=
  [entry "core_status_block_len" statusBlockLength, entry "cores_per_board" coresPerBoard,
    entry "frames_per_transaction" framesPerTransaction, entry "hashes_per_work" hashesPerWork,
    entry "max_queue_capacity" WorkQueue.maxCapacity, entry "nop_byte" nop,
    entry "poll_interval_us" pollIntervalMicros, entry "reply_header_len" headerLength,
    entry "reply_record_len" recordLength, entry "request_frame_len" frameLength,
    entry "spi_bits_per_word" spiBitsPerWord, entry "spi_delay_usecs" spiDelayMicros,
    entry "spi_mode" spiMode, entry "spi_speed_hz" spiSpeedHz,
    entry "transaction_len" transactionLength, entry "work_id_mask" idMask,
    entry "work_id_space" idSpace]

/-! ## Replies and cores -/

instance : ToJson CoreId := ⟨fun id => toJson id.index⟩
instance : OfJson CoreId := ⟨fun v => CoreId.mk <$> ofJson? v⟩

def ReplyHeader.fields (h : ReplyHeader) : Json.Fields :=
  [entry "overflow" h.overflow, entry "accepted" h.accepted]

def ReplyKind.name : ReplyKind → String
  | nonce => "nonce"
  | done => "done"

instance : OfJson ReplyKind where
  ofJson?
    | .string "nonce" => some .nonce
    | .string "done" => some .done
    | _ => none

instance : ToJson ReplyRecord where
  toJson r := .object [entry "kind" r.kind.name, entry "label" r.kind.label,
    entry "asic" r.address.asic, entry "core" r.address.core, entry "id" r.id,
    entry "nonce" r.nonce]

def ReplyRecord.decoder : Json.Decoder ReplyRecord :=
  return ⟨← field "kind", ⟨← field "asic", ← field "core"⟩, ← field "id", ← fieldD "nonce" 0⟩

/-- Reads a slot: a record, or the bytes of one. -/
def ReplyRecord.slotDecoder : Json.Decoder (List UInt8) := do
  match ← read with
  | .object _ => return (← decoder).bytes
  | v => ((ofJson? v).filter (·.length = Wire.recordLength)).elim (throw "records") pure

/-- Reads a receive buffer: its bytes, which need not be filled up to a transaction, or its header and as
many slots as it has room for. -/
def Reply.decoder : Json.Decoder (List UInt8) := do
  let full := Bytes.resize Wire.transactionLength 0
  if ← has "rx" then
    let bytes ← field "rx"
    return if ← fieldD "exact" false then bytes else full bytes
  let records ← if ← has "records" then each "records" ReplyRecord.slotDecoder else pure []
  if (slots (full [])).length < records.length then throw "records"
  let header : ReplyHeader := ⟨← fieldD "overflow" false, ← fieldD "accepted" 0⟩
  return full (header.bytes ++ records.flatten)

instance : ToJson Core where
  toJson c := .object [entry "asic" c.asic, entry "index" c.index, entry "enabled" c.enabled]

/-- What a map holds of a board. -/
def CoreMap.boardJson (m : CoreMap) (asic : UInt8) (ids : Array CoreId) : Json :=
  .object [entry "asic" asic, entry "cores" ids.size, entry "first" ids[0]?,
    entry "enabled" (String.ofList (ids.toList.map fun id =>
      if (m.get? id).any Core.enabled then '1' else '0'))]

def CoreMap.fields (m : CoreMap) : Json.Fields :=
  [entry "len" m.size, entry "is_empty" (m.size == 0), entry "enabled" m.enabledCount,
    entry "boards" (m.byAsic.toList.map fun (asic, ids) => m.boardJson asic ids)]

/-! ## Counts and outcomes -/

instance : ToJson QueueCounts := ⟨fun c => toJson [c.enqueued, c.rejected, c.pruned, c.flushed]⟩

/-- The fields that describe a queue, apart from its items. -/
def WorkQueue.fields (q : WorkQueue) : Json.Fields :=
  [entry "len" q.size, entry "capacity" q.capacity, entry "need_flush" q.needFlush,
    entry "enqueued" q.counts.enqueued, entry "rejected" q.counts.rejected,
    entry "pruned" q.counts.pruned, entry "flushed" q.counts.flushed]

instance : ToJson DispatchSummary where
  toJson s := .object [entry "nonces" s.nonces, entry "completed" s.completed,
    entry "unknown" s.unknown, entry "unresolved" s.unresolved]

instance : ToJson PollOutcome where
  toJson o := .object [entry "delay_us" o.delay, entry "transport_ok" o.transportOk,
    entry "flushed" o.flushed, entry "sent" o.sent, entry "accepted" o.accepted,
    entry "overflow" o.overflow, entry "dispatch" o.dispatch]

def Stats.fields (s : Stats) : Json.Fields :=
  [entry "hashes" s.hashes, entry "nonces" s.nonces, entry "completed" s.completed,
    entry "hardware_errors" s.hardwareErrors]

/-! ## Events -/

/-- The fields that describe an event, with the item it is about under its key. -/
def Event.fields (key : Item → String) : Event → Json.Fields
  | nonce core item found =>
    [entry "event" "nonce", entry "core" core, entry "key" (key item), entry "nonce" found]
  | completed core hashes =>
    [entry "event" "completed", entry "core" core, entry "hashes" hashes]
  | hardwareError core found =>
    [entry "event" "hardware_error", entry "core" core, entry "nonce" found]
  | error device message =>
    [entry "event" "error", entry "device" device, entry "message" message]

/-! ## Log lines -/

instance : ToJson Log.Stream where
  toJson
    | .out => .string "out"
    | .err => .string "err"

/-! ## Settings -/

instance : ToJson Simulation where
  toJson s := .object [entry "devices" s.devices, entry "boards" s.boards,
    entry "queue_depth" s.queueDepth, entry "completions" s.completions]

def Simulation.decoder : Json.Decoder Simulation :=
  return ⟨← field "devices", ← field "boards", ← field "queue_depth", ← field "completions"⟩

/-- The fields that describe the settings of a run; its times are in seconds. -/
def Settings.fields (s : Settings) : Json.Fields :=
  let secs (d : Duration) := d / Duration.ofSecs 1
  [entry "bus" s.bus.name, entry "spidev" s.spidev, entry "spi_speed" s.spiSpeed,
    entry "i2c" s.i2c, entry "slaves" s.slaves, entry "poll_interval_us" s.pollMicros,
    entry "stats_secs" (secs s.statsInterval), entry "duration_secs" (s.duration.map secs),
    entry "epoch_secs" (secs s.epochInterval), entry "soft_refresh" s.softRefresh,
    entry "sim" s.simulation, entry "stats_output" s.statsOutput, entry "log_level" s.logLimit.name]

/-! ## Simulated parts -/

/-- Reads the settings of a simulator; what is left out is as on one full board. -/
def SimulatorSettings.decoder : Json.Decoder SimulatorSettings := do
  let base := SimulatorSettings.standard
  return ⟨← fieldD "boards" base.boards, ← fieldD "queue_depth" base.queueDepth,
    ← fieldD "completions" base.completionsPerPoll, ← fieldD "nonce_every" base.nonceEvery⟩

def SimulatedSlave.decoder : Json.Decoder SimulatedSlave := do
  let address ← field "slave"
  let registers ← field "status"
  let selectError ← fieldD "select_errno" none
  let broken : List Nat ← fieldD "fail" []
  if broken.any (UInt8.size ≤ ·) then throw "fail"
  return ⟨address, registers, selectError, broken.map UInt8.ofNat, ← fieldD "word" none⟩

/-- An item in short: its epoch, the first bytes of its midstate, and its tail. -/
def Item.brief (item : Item) : Json :=
  .array [toJson item.epoch, toJson (item.work.midstate.toList.take 4), toJson item.work.tail]

instance : ToJson Shelf where
  toJson s := .object [entry "queued" s.items.size, entry "first" (s.items[0]?.map Item.brief),
    entry "last" (s.items.back?.map Item.brief), entry "flushes" s.flushes, entry "polls" s.polls]

/-- Reads how a stand-in goes wrong; it answers soundly unless told otherwise. -/
def Fault.decoder : Json.Decoder (Option Fault) := do
  match ← fieldD "mode" "echo" with
  | "echo" => return none
  | "fail" => return some .failing
  | "panic" => return some .crashing
  | _ => throw "mode"

/-- Reads a stand-in for a bus: a simulator, or a line that returns what is sent. -/
def StandIn.decoder : Json.Decoder StandIn := do
  if ← has "sim" then return .simulated (.start (← inner "sim" SimulatorSettings.decoder))
  else return .loopback (← field "name") none

instance : ToJson ControlRequest where
  toJson
    | .select slave => .array [toJson "select", toJson slave]
    | .block register length => .array [toJson "block", toJson register, toJson length]
    | .word register => .array [toJson "word", toJson register]

end Hashboard
