import Hashboard.Reply
import Hashboard.Proofs.Bytes

/-!
# What a written reply reads back as

The header of a reply reads back as it was written, and its records read back in order, each cut to the bits
that it has on the wire.
-/

namespace Hashboard

/-! ## One record -/

namespace ReplyRecord

/-- What is left of a record on the wire: three bits of the asic and fifteen of the id. -/
def onWire (r : ReplyRecord) : ReplyRecord :=
  { r with
    address := { r.address with asic := r.address.asic &&& 7 }
    id := r.id &&& Wire.idMask }

theorem onWire_eq_mod (r : ReplyRecord) :
    r.onWire = { r with address := { r.address with asic := r.address.asic % 8 }, id := r.id % 32768 } := by
  have hasic : r.address.asic &&& 7 = r.address.asic % 8 := by
    rw [← UInt8.toNat_inj, UInt8.toNat_and, UInt8.toNat_mod]
    exact Nat.and_two_pow_sub_one_eq_mod _ 3
  rw [onWire, hasic, Bytes.and_idMask]

theorem onWire_of_lt {r : ReplyRecord} (hasic : r.address.asic < 8) (hid : r.id < 32768) :
    r.onWire = r := by
  rw [onWire_eq_mod, UInt8.mod_eq_of_lt hasic, UInt16.mod_eq_of_lt hid]

@[simp] theorem bytes_length (r : ReplyRecord) : r.bytes.length = Wire.recordLength := by
  simp only [bytes, List.length_append, Bytes.ofNat_length]
  rfl

private theorem head_fields : ∀ n : Fin 256,
    let asic := UInt8.ofFin n
    let nonce := (1 : UInt8) <<< 6 ||| (asic &&& 7) <<< 3
    let done := (2 : UInt8) <<< 6 ||| (asic &&& 7) <<< 3
    nonce >>> 6 = 1 ∧ (nonce &&& 0x38) >>> 3 = asic &&& 7 ∧
      done >>> 6 = 2 ∧ (done &&& 0x38) >>> 3 = asic &&& 7 := by
  decide +kernel

theorem ofTag?_tag (kind : ReplyKind) : ReplyKind.ofTag? kind.tag = some kind := by
  cases kind <;> rfl

private theorem head_tag (r : ReplyRecord) : slotTag r.bytes = r.kind.tag := by
  have h := head_fields r.address.asic.toFin
  simp only [slotTag, bytes, List.cons_append, List.headD_cons]
  cases r.kind with
  | nonce => exact h.1
  | done => exact h.2.2.1

private theorem head_asic (r : ReplyRecord) :
    (r.bytes.headD 0 &&& 0x38) >>> 3 = r.address.asic &&& 7 := by
  have h := head_fields r.address.asic.toFin
  simp only [bytes, List.cons_append, List.headD_cons]
  cases r.kind with
  | nonce => exact h.2.1
  | done => exact h.2.2.2

theorem decode_bytes (r : ReplyRecord) : decode? r.bytes = some r.onWire := by
  have hid : Bytes.u16At 2 r.bytes = r.id &&& Wire.idMask := by
    simp only [bytes, List.append_assoc]
    exact Bytes.u16At_append rfl
  have hnonce : Bytes.u32At 4 r.bytes = r.nonce := by
    rw [bytes, List.append_assoc (_ ++ _)]
    exact Bytes.u32At_append (by simp)
  have hcore : Bytes.u32At 8 r.bytes = r.address.core := by
    rw [bytes, ← List.append_nil (Bytes.ofNat 4 r.address.core.toNat)]
    exact Bytes.u32At_append (by simp)
  rw [decode?, if_neg (by simp), head_tag, ofTag?_tag, hid, hnonce, slotAddress, head_asic, hcore]
  simp [onWire, UInt16.and_assoc]

theorem decode_zeros (k : Nat) : decode? (List.replicate k 0) = none := by
  have htag : ReplyKind.ofTag? (slotTag (List.replicate k 0)) = none := by
    cases k with
    | zero => rfl
    | succ k => simp only [slotTag, List.replicate_succ, List.headD_cons]; decide
  unfold decode?
  split
  · rfl
  · rw [htag]; rfl

end ReplyRecord

/-! ## The whole reply -/

@[simp] theorem ReplyHeader.bytes_length (header : ReplyHeader) :
    header.bytes.length = Wire.headerLength := by
  simp only [ReplyHeader.bytes, List.length_append, Bytes.ofNat_length]
  rfl

theorem ReplyHeader.decode_bytes (header : ReplyHeader) (rest : List UInt8) :
    ReplyHeader.decode (header.bytes ++ rest) = header := by
  have haccepted : Bytes.u16At 6 (header.bytes ++ rest) = header.accepted := by
    simp only [ReplyHeader.bytes, List.append_assoc]
    exact Bytes.u16At_append rfl
  have hoverflow : (header.bytes ++ rest).getD 3 0 = if header.overflow then 1 else 0 := rfl
  have hwhole : ¬ (header.bytes ++ rest).length < Wire.headerLength := by simp
  rw [ReplyHeader.decode, if_neg hwhole, haccepted, hoverflow]
  obtain ⟨overflow, accepted⟩ := header
  cases overflow <;> simp

namespace Reply

variable {length : Nat} {header : ReplyHeader} {rs : List ReplyRecord}

/-- The records that a reply of this length has room for. -/
def room (length : Nat) : Nat :=
  (length - Wire.headerLength) / Wire.recordLength

/-- The records of a receive buffer, in the order of the wire. -/
def records (rx : List UInt8) : List ReplyRecord :=
  (slots rx).filterMap ReplyRecord.decode?

theorem records_length_le (rx : List UInt8) : (records rx).length ≤ room rx.length := by
  have hslots := List.length_filterMap_le ReplyRecord.decode? (slots rx)
  rwa [slots, Bytes.pieces_length] at hslots

private theorem mem_bytes_length : ∀ part ∈ rs.map ReplyRecord.bytes, part.length = Wire.recordLength := by
  simp

private theorem parts_length (length : Nat) (rs : List ReplyRecord) :
    ((rs.take (room length)).map ReplyRecord.bytes).flatten.length ≤ length - Wire.headerLength := by
  rw [Bytes.flatten_length mem_bytes_length, List.length_map, List.length_take]
  simp only [room, Wire.recordLength]
  omega

/-- A reply is its header, the records that there is room for, and zeros to the full length. -/
theorem write_eq (h : Wire.headerLength ≤ length) :
    let parts := (rs.take (room length)).map ReplyRecord.bytes
    write length header rs = header.bytes ++
      (parts.flatten ++ List.replicate (length - (Wire.headerLength + parts.flatten.length)) 0) := by
  have hparts := parts_length length rs
  have hfit : (header.bytes ++ ((rs.take (room length)).map ReplyRecord.bytes).flatten).length ≤ length := by
    rw [List.length_append, ReplyHeader.bytes_length]
    omega
  rw [write, if_neg (Nat.not_lt.mpr h), Bytes.resize, List.flatMap_def]
  simp only [room] at hfit ⊢
  rw [List.take_of_length_le hfit, List.length_append, ReplyHeader.bytes_length, List.append_assoc]

theorem write_length (h : Wire.headerLength ≤ length) : (write length header rs).length = length := by
  have hparts := parts_length length rs
  rw [write_eq h]
  simp only [List.length_append, ReplyHeader.bytes_length, List.length_replicate]
  omega

theorem decode_write (h : Wire.headerLength ≤ length) :
    ReplyHeader.decode (write length header rs) = header := by
  rw [write_eq h]
  exact ReplyHeader.decode_bytes header _

theorem map_onWire_of_lt (h : ∀ r ∈ rs, r.address.asic < 8 ∧ r.id < 32768) :
    rs.map ReplyRecord.onWire = rs := by
  have hsame : ∀ r ∈ rs, r.onWire = id r := fun r hr => ReplyRecord.onWire_of_lt (h r hr).1 (h r hr).2
  rw [List.map_congr_left hsame, List.map_id]

theorem records_write (h : Wire.headerLength ≤ length) :
    records (write length header rs) = (rs.take (room length)).map ReplyRecord.onWire := by
  let parts := (rs.take (room length)).map ReplyRecord.bytes
  have hcount : (length - Wire.headerLength) / Wire.recordLength =
      parts.length + (room length - parts.length) := by
    simp only [parts, List.length_map, List.length_take, room]
    omega
  rw [records, slots, write_length h, hcount, write_eq h, List.drop_left' (ReplyHeader.bytes_length _),
    Bytes.pieces_append mem_bytes_length, List.filterMap_append]
  have hnone : (Bytes.pieces Wire.recordLength (room length - parts.length) (List.replicate
      (length - (Wire.headerLength + parts.flatten.length)) 0)).filterMap ReplyRecord.decode? = [] := by
    refine List.filterMap_eq_nil_iff.mpr ?_
    intro piece hp
    obtain ⟨k, rfl⟩ := Bytes.mem_pieces_replicate hp
    exact ReplyRecord.decode_zeros k
  have hback : ReplyRecord.decode? ∘ ReplyRecord.bytes = some ∘ ReplyRecord.onWire :=
    funext ReplyRecord.decode_bytes
  rw [hnone, List.append_nil, List.filterMap_map, hback, List.filterMap_eq_map]

/-- Records that there is room for, with fields that fit, read back as they are. -/
theorem records_write_of_fits (h : Wire.headerLength ≤ length) (hroom : rs.length ≤ room length)
    (hfit : ∀ r ∈ rs, r.address.asic < 8 ∧ r.id < 32768) : records (write length header rs) = rs := by
  rw [records_write h, List.take_of_length_le hroom, map_onWire_of_lt hfit]

end Reply

end Hashboard
