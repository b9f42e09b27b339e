import Hashboard.Proofs.Reply

/-!
# Replies written piece by piece

A reply is written into a buffer that is there already: the header over its front, then each record over a
slot of its own. What was written reads back, nothing else is touched, and a slot that was read is written as
it was, but for the bits that no record uses (`round_trip`).
-/

namespace Hashboard

/-! ## One record -/

namespace ReplyRecord

/-- Writes the record over the bytes from `offset` on: none if `out` ends too early. -/
def encodeAt? (record : ReplyRecord) (offset : Nat) (out : List UInt8) : Option (List UInt8) :=
  if out.length < offset then none else (record.encode? (out.drop offset)).map (out.take offset ++ ·)

/-- A slot without the bits that no record uses: the low three of the first byte, the second byte, and the
top bit of the third. -/
def usedBits (slot : List UInt8) : List UInt8 :=
  ((slot.modify 0 (· &&& 0xf8)).set 1 0).modify 2 (· &&& 0x7f)

private theorem head_used : ∀ n : Fin 256,
    let b := UInt8.ofFin n
    (b >>> 6) <<< 6 ||| (((b &&& 0x38) >>> 3) &&& 7) <<< 3 = b &&& 0xf8 := by
  decide +kernel

theorem tag_of_ofTag? {tag : UInt8} {kind : ReplyKind} (h : ReplyKind.ofTag? tag = some kind) :
    kind.tag = tag := by
  unfold ReplyKind.ofTag? at h
  split at h
  · rename_i hnonce
    cases h
    exact hnonce.symm
  · split at h
    · rename_i hdone
      cases h
      exact hdone.symm
    · cases h

private theorem eq_twelve {slot : List UInt8} (h : slot.length = 12) :
    ∃ b₀ b₁ b₂ b₃ b₄ b₅ b₆ b₇ b₈ b₉ b₁₀ b₁₁,
      slot = [b₀, b₁, b₂, b₃, b₄, b₅, b₆, b₇, b₈, b₉, b₁₀, b₁₁] := by
  match slot, h with
  | [_, _, _, _, _, _, _, _, _, _, _, _], _ => exact ⟨_, _, _, _, _, _, _, _, _, _, _, _, rfl⟩

/-- A record is written as the used bits of the slot that it was read from. -/
theorem bytes_of_decode {slot : List UInt8} {r : ReplyRecord} (hlen : slot.length = Wire.recordLength)
    (h : decode? slot = some r) : r.bytes = usedBits slot := by
  -- nonce and core keep all their bits; only the head and the id lose some
  have hnonce : Bytes.ofNat 4 (Bytes.u32At 4 slot).toNat = Bytes.slice 4 4 slot :=
    Bytes.ofNat_u32At (by rw [hlen]; decide)
  have hcore : Bytes.ofNat 4 (Bytes.u32At 8 slot).toNat = Bytes.slice 8 4 slot :=
    Bytes.ofNat_u32At (by rw [hlen]; decide)
  rw [decode?, if_neg (by rw [hlen]; decide), Option.map_eq_some_iff] at h
  obtain ⟨kind, hkind, rfl⟩ := h
  have htag := tag_of_ofTag? hkind
  obtain ⟨b₀, b₁, b₂, b₃, b₄, b₅, b₆, b₇, b₈, b₉, b₁₀, b₁₁, rfl⟩ := eq_twelve hlen
  have hhead : (b₀ >>> 6) <<< 6 ||| (((b₀ &&& 0x38) >>> 3) &&& 7) <<< 3 = b₀ &&& 0xf8 :=
    head_used b₀.toFin
  have hid : Bytes.u16At 2 [b₀, b₁, b₂, b₃, b₄, b₅, b₆, b₇, b₈, b₉, b₁₀, b₁₁] =
      UInt16.ofNat (Bytes.toNat [b₂, b₃]) := rfl
  simp only [bytes, slotAddress, htag, slotTag, hnonce, hcore, hid, UInt16.and_assoc, UInt16.and_self,
    Bytes.ofNat_id, List.headD_cons, hhead]
  rfl

theorem encode?_of_decode {slot out : List UInt8} {r : ReplyRecord}
    (hslot : slot.length = Wire.recordLength) (hout : out.length = Wire.recordLength)
    (h : decode? slot = some r) : r.encode? out = some (usedBits slot) := by
  have hnone : out.drop Wire.recordLength = [] := by rw [← hout, List.drop_length]
  rw [encode?, if_neg (by rw [hout]; decide), hnone, List.append_nil, bytes_of_decode hslot h]

end ReplyRecord

/-! ## Whole replies -/

namespace Reply

variable {header : ReplyHeader} {rs : List ReplyRecord} {length : Nat}

/-- Writes the records into the slots from number `slot` on. -/
def encodeRecords? : (slot : Nat) → List ReplyRecord → List UInt8 → Option (List UInt8)
  | _, [], out => some out
  | slot, r :: rs, out =>
    (r.encodeAt? (Wire.headerLength + Wire.recordLength * slot) out).bind (encodeRecords? (slot + 1) rs)

/-- Writes the header over the front of `out`, then the records into the slots behind it. -/
def encode? (header : ReplyHeader) (rs : List ReplyRecord) (out : List UInt8) : Option (List UInt8) :=
  (header.encode? out).bind (encodeRecords? 0 rs)

/-- Each record fills its slot and leaves what is in front of it and behind it. -/
theorem encodeRecords?_eq {front behind : List UInt8} {slot : Nat}
    (hfront : front.length = Wire.headerLength + Wire.recordLength * slot)
    (h : Wire.recordLength * rs.length ≤ behind.length) :
    encodeRecords? slot rs (front ++ behind) =
      some (front ++ ((rs.map ReplyRecord.bytes).flatten ++
        behind.drop (Wire.recordLength * rs.length))) := by
  induction rs generalizing front slot behind with
  | nil => simp [encodeRecords?]
  | cons r rs ih =>
      rw [List.length_cons, Nat.mul_succ] at h
      have hroom : ¬ behind.length < Wire.recordLength := by omega
      have hnext : (front ++ r.bytes).length = Wire.headerLength + Wire.recordLength * (slot + 1) := by
        rw [List.length_append, r.bytes_length, hfront, Nat.mul_succ, Nat.add_assoc]
      have hfit : Wire.recordLength * rs.length ≤ (behind.drop Wire.recordLength).length := by
        rw [List.length_drop]
        omega
      have hrest := ih hnext hfit
      rw [encodeRecords?, ReplyRecord.encodeAt?, if_neg (by rw [List.length_append]; omega),
        List.drop_left' hfront, List.take_left' hfront, ReplyRecord.encode?, if_neg hroom,
        Option.map_some, Option.bind_some, ← List.append_assoc, hrest, List.drop_drop]
      simp [Nat.mul_succ, Nat.add_comm]

theorem encode?_eq {out : List UInt8}
    (h : Wire.headerLength + Wire.recordLength * rs.length ≤ out.length) :
    encode? header rs out = some (header.bytes ++ ((rs.map ReplyRecord.bytes).flatten ++
      out.drop (Wire.headerLength + Wire.recordLength * rs.length))) := by
  have hroom : ¬ out.length < Wire.headerLength := by omega
  rw [encode?, ReplyHeader.encode?, if_neg hroom, Option.bind_some,
    encodeRecords?_eq (by rw [header.bytes_length, Nat.mul_zero, Nat.add_zero])
      (by rw [List.length_drop]; omega), List.drop_drop]

private theorem flatten_bytes_length (rs : List ReplyRecord) :
    ((rs.map ReplyRecord.bytes).flatten).length = Wire.recordLength * rs.length := by
  have hsize : ∀ bytes ∈ rs.map ReplyRecord.bytes, bytes.length = Wire.recordLength := by simp
  rw [Bytes.flatten_length hsize, List.length_map, Nat.mul_comm]

/-- Nothing behind the last record is touched. -/
theorem drop_encode? {out rx : List UInt8}
    (h : Wire.headerLength + Wire.recordLength * rs.length ≤ out.length)
    (hrx : encode? header rs out = some rx) :
    rx.drop (Wire.headerLength + Wire.recordLength * rs.length) =
      out.drop (Wire.headerLength + Wire.recordLength * rs.length) := by
  rw [encode?_eq h, Option.some.injEq, ← List.append_assoc] at hrx
  rw [← hrx]
  refine List.drop_left' ?_
  rw [List.length_append, header.bytes_length, flatten_bytes_length]

/-- Written into zeros piece by piece, a reply is the same as written at once. -/
theorem encode?_zeros (h : Wire.headerLength + Wire.recordLength * rs.length ≤ length) :
    encode? header rs (List.replicate length 0) = some (write length header rs) ∧
      rs.take (room length) = rs := by
  have hall : rs.take (room length) = rs := by
    refine List.take_of_length_le ?_
    simp only [room, Wire.headerLength, Wire.recordLength] at h ⊢
    omega
  refine ⟨?_, hall⟩
  rw [encode?_eq (by rwa [List.length_replicate]), write_eq (by omega), hall, List.drop_replicate]
  simp only [flatten_bytes_length]

/-- The slots are the whole pieces of the buffer behind its header. -/
theorem slots_getElem? {rx : List UInt8} {k : Nat} (h : k < room rx.length) :
    (slots rx)[k]? =
      some (Bytes.slice (Wire.headerLength + Wire.recordLength * k) Wire.recordLength rx) := by
  rw [Bytes.slice, ← List.drop_drop]
  exact Bytes.pieces_getElem? h _

theorem slot_length {rx slot : List UInt8} (h : slot ∈ slots rx) : slot.length = Wire.recordLength := by
  obtain ⟨k, hk, rfl⟩ := List.mem_iff_getElem.mp h
  have hroom : k < room rx.length := by rwa [slots, Bytes.pieces_length] at hk
  have hslot := slots_getElem? hroom
  rw [List.getElem?_eq_getElem hk, Option.some.injEq] at hslot
  rw [hslot]
  refine Bytes.slice_length ?_
  simp only [room, Wire.headerLength, Wire.recordLength] at hroom ⊢
  omega

/-- Replies read back as they were written, and slots are written as they were read. -/
theorem round_trip :
    (∀ (header : ReplyHeader) (rs : List ReplyRecord) (length : Nat),
      Wire.headerLength + Wire.recordLength * rs.length ≤ length →
        ∃ rx, encode? header rs (List.replicate length 0) = some rx ∧ rx.length = length ∧
          ReplyHeader.decode rx = header ∧
          records rx = rs.map (fun r => { r with
            address := { r.address with asic := r.address.asic % 8 }
            id := r.id % 32768 }) ∧
          ((∀ r ∈ rs, r.address.asic < 8 ∧ r.id < 32768) → records rx = rs) ∧
          rx.drop (Wire.headerLength + Wire.recordLength * rs.length) =
            (List.replicate length 0).drop (Wire.headerLength + Wire.recordLength * rs.length)) ∧
      (∀ (slot out : List UInt8) (r : ReplyRecord), slot.length = Wire.recordLength →
        out.length = Wire.recordLength → ReplyRecord.decode? slot = some r →
          r.encode? out = some (ReplyRecord.usedBits slot)) ∧
      ∀ rx : List UInt8,
        (slots rx).length = (rx.length - Wire.headerLength) / Wire.recordLength ∧
          (∀ k, k < (slots rx).length → (slots rx)[k]? =
            some (Bytes.slice (Wire.headerLength + Wire.recordLength * k) Wire.recordLength rx)) ∧
          (∀ slot ∈ slots rx, slot.length = Wire.recordLength) ∧
          (slots rx).flatten =
            Bytes.slice Wire.headerLength (Wire.recordLength * (slots rx).length) rx := by
  refine ⟨?_, fun _ _ _ => ReplyRecord.encode?_of_decode, ?_⟩
  · intro header rs length h
    have hheader : Wire.headerLength ≤ length := by omega
    obtain ⟨hrx, hall⟩ : encode? header rs (List.replicate length 0) = some (write length header rs) ∧
        rs.take (room length) = rs := encode?_zeros h
    have hrecords : records (write length header rs) = rs.map ReplyRecord.onWire := by
      rw [records_write hheader, hall]
    refine ⟨_, hrx, write_length hheader, decode_write hheader, ?_, ?_, ?_⟩
    · rw [hrecords]
      exact List.map_congr_left fun r _ => r.onWire_eq_mod
    · intro hrange
      rw [hrecords, map_onWire_of_lt hrange]
    · exact drop_encode? (by rwa [List.length_replicate]) hrx
  · intro rx
    have hcount : (slots rx).length = room rx.length := Bytes.pieces_length _ _
    refine ⟨hcount, ?_, fun _ => slot_length, ?_⟩
    · intro k hk
      exact slots_getElem? (hcount ▸ hk)
    · rw [hcount]
      exact Bytes.pieces_flatten _ _

/-- Two records and a partial slot behind them; and the slot of a nonce with all unused bits set. -/
theorem round_trip_pair :
    let found : ReplyRecord := ⟨.nonce, ⟨6, 191⟩, 0x7fff, 0xdeadbeef⟩
    let ended : ReplyRecord := ⟨.done, ⟨1, 3⟩, 9, 0⟩
    let slot : List UInt8 := [0x77, 0xff, 0xff, 0xff, 0xde, 0xad, 0xbe, 0xef, 0, 0, 0, 191]
    (∃ rx, encode? ⟨true, 258⟩ [found, ended] (List.replicate 40 0) = some rx ∧
      ReplyHeader.decode rx = ⟨true, 258⟩ ∧ records rx = [found, ended]) ∧
      ReplyRecord.decode? slot = some found ∧
      found.encode? (List.replicate 12 0) =
        some [0x70, 0, 0x7f, 0xff, 0xde, 0xad, 0xbe, 0xef, 0, 0, 0, 191] := by
  intro found ended slot
  obtain ⟨rx, hrx, _, hheader, _, hrecords, _⟩ :=
    round_trip.1 ⟨true, 258⟩ [found, ended] 40 (by decide)
  have hslot : ReplyRecord.decode? slot = some found := by decide
  exact ⟨⟨rx, hrx, hheader, hrecords (by decide)⟩, hslot,
    round_trip.2.1 slot (List.replicate 12 0) found rfl rfl hslot⟩

end Reply

end Hashboard
