import Hashboard.Bytes
import Hashboard.Wire

/-!
# Replies

A reply is a header, which tells how many submissions were accepted, and a row of record slots. A slot
holds a record if its top two bits are the tag of a nonce or of finished work; any other slot is empty.
-/

namespace Hashboard

/-- The boards' receipt for a transaction. -/
structure ReplyHeader where
  overflow : Bool
  accepted : UInt16
  deriving DecidableEq, Repr

inductive ReplyKind where
  | nonce
  /-- The search of a work item has ended. -/
  | done
  deriving DecidableEq, Repr

namespace ReplyKind

def tag : ReplyKind → UInt8
  | nonce => 1
  | done => 2

def ofTag? (tag : UInt8) : Option ReplyKind :=
  if tag = 1 then some nonce else if tag = 2 then some done else none

def label : ReplyKind → String
  | nonce => "nonce found"
  | done => "work done"

end ReplyKind

/-- Where a core sits: the board's asic and the core's place on it. -/
structure CoreAddress where
  asic : UInt8
  core : UInt32
  deriving DecidableEq, Repr

structure ReplyRecord where
  kind : ReplyKind
  address : CoreAddress
  id : UInt16
  nonce : UInt32
  deriving DecidableEq, Repr

namespace ReplyHeader

/-- The header of a reply without room for one. -/
def absent : ReplyHeader := ⟨false, 0⟩

def bytes (header : ReplyHeader) : List UInt8 :=
  [0, 0, 0, if header.overflow then 1 else 0, 0, 0] ++ Bytes.ofNat 2 header.accepted.toNat
    ++ List.replicate 4 0

/-- Reads the header of a receive buffer; a buffer too short for one counts as all zero. -/
def decode (rx : List UInt8) : ReplyHeader :=
  if rx.length < Wire.headerLength then
    absent
  else
    ⟨rx.getD 3 0 &&& 1 = 1, Bytes.u16At 6 rx⟩

/-- Writes the header over the front of `out`: none if `out` is too short. -/
def encode? (header : ReplyHeader) (out : List UInt8) : Option (List UInt8) :=
  if out.length < Wire.headerLength then none else some (header.bytes ++ out.drop Wire.headerLength)

end ReplyHeader

namespace ReplyRecord

/-- The tag in a slot's top two bits. -/
def slotTag (slot : List UInt8) : UInt8 :=
  slot.headD 0 >>> 6

def slotAddress (slot : List UInt8) : CoreAddress :=
  ⟨(slot.headD 0 &&& 0x38) >>> 3, Bytes.u32At 8 slot⟩

/-- The record's twelve bytes; the asic is cut to three bits and the id to fifteen. -/
def bytes (record : ReplyRecord) : List UInt8 :=
  [record.kind.tag <<< 6 ||| (record.address.asic &&& 7) <<< 3, 0]
    ++ Bytes.ofNat 2 (record.id &&& Wire.idMask).toNat
    ++ Bytes.ofNat 4 record.nonce.toNat
    ++ Bytes.ofNat 4 record.address.core.toNat

/-- Reads the record in a slot: none if the slot is too short or empty. -/
def decode? (slot : List UInt8) : Option ReplyRecord :=
  if slot.length < Wire.recordLength then
    none
  else
    (ReplyKind.ofTag? (slotTag slot)).map fun kind => {
      kind
      address := slotAddress slot
      id := Bytes.u16At 2 slot &&& Wire.idMask
      nonce := Bytes.u32At 4 slot }

/-- Writes the record over the front of `out`: none if `out` is too short. -/
def encode? (record : ReplyRecord) (out : List UInt8) : Option (List UInt8) :=
  if out.length < Wire.recordLength then none else some (record.bytes ++ out.drop Wire.recordLength)

end ReplyRecord

namespace Reply

/-- The whole slots behind the header of a receive buffer. -/
def slots (rx : List UInt8) : List (List UInt8) :=
  Bytes.pieces Wire.recordLength ((rx.length - Wire.headerLength) / Wire.recordLength)
    (rx.drop Wire.headerLength)

/-- A receive buffer of `length` zero bytes with the header and the records written into it; what does
not fit is left out. -/
def write (length : Nat) (header : ReplyHeader) (records : List ReplyRecord) : List UInt8 :=
  if length < Wire.headerLength then
    List.replicate length 0
  else
    let room := (length - Wire.headerLength) / Wire.recordLength
    Bytes.resize length 0 (header.bytes ++ ((records.take room).flatMap ReplyRecord.bytes))

end Reply

end Hashboard
