import Hashboard.Proofs.Tracking

/-!
# Where simulated boards work on an item

Boards and core map lay out the cores on their own: one counts a number off along a list of boards, the other
registers board after board. A record that carries the boards' address still leads to the core of that number
(`layout_agrees`).
-/

namespace Hashboard

/-! ## Slots with bytes behind them -/

theorem Bytes.slice_append_left {start count : Nat} {bytes behind : List UInt8}
    (h : start + count ≤ bytes.length) : slice start count (bytes ++ behind) = slice start count bytes := by
  rw [slice, slice, List.drop_append_of_le_length (by omega),
    List.take_append_of_le_length (by rw [List.length_drop]; omega)]

theorem ReplyRecord.decode_append {slot behind : List UInt8} (h : slot.length = Wire.recordLength) :
    decode? (slot ++ behind) = decode? slot := by
  have hwhole : ¬ slot.length < Wire.recordLength := by omega
  have hlonger : ¬ (slot ++ behind).length < Wire.recordLength := by
    rw [List.length_append]
    omega
  have hhead : (slot ++ behind).headD 0 = slot.headD 0 := by
    cases slot with
    | nil => cases h
    | cons b rest => rfl
  have hfield : ∀ start count, start + count ≤ 12 →
      Bytes.slice start count (slot ++ behind) = Bytes.slice start count slot := fun _ _ hle =>
    Bytes.slice_append_left (h ▸ hle)
  simp only [decode?, if_neg hwhole, if_neg hlonger, slotTag, slotAddress, hhead, Bytes.u16At, Bytes.u32At,
    hfield 2 2 (by decide), hfield 4 4 (by decide), hfield 8 4 (by decide)]

/-- A record that is written over the front of any buffer reads back as it is on the wire. -/
theorem ReplyRecord.decode_encode? (r : ReplyRecord) {out : List UInt8} (h : Wire.recordLength ≤ out.length) :
    ∃ slot, r.encode? out = some slot ∧ decode? slot = some r.onWire := by
  refine ⟨_, if_neg (by omega), ?_⟩
  rw [decode_append r.bytes_length, decode_bytes]

namespace SimulatorSettings

variable {s : SimulatorSettings} {boards : List (UInt8 × List UInt8)}

/-! ## The search for a slot -/

/-- How counting a slot off along the boards ends. -/
inductive Search where
  | found (address : CoreAddress)
  /-- No board is left, and the address that stands in for one is taken. -/
  | missed
  /-- A board has more cores than there are left to count. -/
  | underflow
  deriving DecidableEq, Repr

/-- Counts a slot off along the boards, and looks whether each subtraction stays in range. -/
def search : List (UInt8 × UInt32) → (slot : UInt32) → Search
  | [], _ => .missed
  | (asic, cores) :: rest, slot =>
    if slot < cores then .found ⟨asic, slot⟩
    else if cores.toNat ≤ slot.toNat then search rest (slot - cores)
    else .underflow

theorem search_cons {asic : UInt8} {cores slot : UInt32} {rest : List (UInt8 × UInt32)} :
    search ((asic, cores) :: rest) slot =
      if slot < cores then .found ⟨asic, slot⟩ else search rest (slot - cores) := by
  rw [search]
  split
  · rfl
  · rename_i hbeyond
    rw [UInt32.not_lt, UInt32.le_iff_toNat_le] at hbeyond
    rw [if_pos hbeyond]

theorem locate_of_found {bs : List (UInt8 × UInt32)} {slot : UInt32} {address : CoreAddress}
    (h : search bs slot = .found address) : locate bs slot = address := by
  induction bs generalizing slot with
  | nil => nomatch h
  | cons board rest ih =>
      rw [search_cons] at h
      rw [locate]
      split at h
      · rename_i hhere
        rw [if_pos hhere]
        exact Search.found.inj h
      · rename_i hbeyond
        rw [if_neg hbeyond]
        exact ih h

theorem exists_found {bs : List (UInt8 × UInt32)} {slot : UInt32}
    (h : slot.toNat < (bs.map fun board => board.2.toNat).sum) :
    ∃ address, search bs slot = .found address := by
  induction bs generalizing slot with
  | nil => simp at h
  | cons board rest ih =>
      rw [search_cons]
      split
      · exact ⟨_, rfl⟩
      · rename_i hbeyond
        rw [UInt32.not_lt] at hbeyond
        refine ih ?_
        rw [UInt32.toNat_sub_of_le _ _ hbeyond]
        rw [UInt32.le_iff_toNat_le] at hbeyond
        rw [List.map_cons, List.sum_cons] at h
        omega

theorem coreCount_eq_sum (s : SimulatorSettings) :
    s.coreCount = (s.boards.map fun board => board.2.toNat).sum := by
  rw [coreCount]
  induction s.boards with
  | nil => rfl
  | cons board rest ih => rw [List.foldr_cons, ih, List.map_cons, List.sum_cons]

/-! ## Boards that are counted and boards that are registered -/

theorem mounted_of_counts (hsame : boards.map (fun b => (b.1, b.2.length)) = s.boards.map fun b => (b.1, b.2.toNat))
    (hasics : (s.boards.map Prod.fst).Nodup) (hwire : ∀ board ∈ s.boards, board.1 < 8)
    (hpos : 0 < s.coreCount) (hlt : s.coreCount < UInt32.size) : Mounted boards s := by
  have hfst : boards.map Prod.fst = s.boards.map Prod.fst := by
    simpa [Function.comp_def] using congrArg (List.map Prod.fst) hsame
  have htotal : CoreMap.coreTotal boards = s.coreCount := by
    rw [coreCount_eq_sum, CoreMap.coreTotal]
    simpa [Function.comp_def] using congrArg (fun bs => (bs.map Prod.snd).sum) hsame
  refine ⟨?_, hfst ▸ hasics, ?_, htotal ▸ hpos, htotal ▸ hlt⟩
  · have hcounts := congrArg (List.map fun b => (b.1, UInt32.ofNat b.2)) hsame
    simp only [List.map_map, Function.comp_def, UInt32.ofNat_toNat, List.map_id'] at hcounts
    exact hcounts.symm
  · intro board hb
    have hasic : board.1 ∈ s.boards.map Prod.fst := hfst ▸ List.mem_map_of_mem hb
    obtain ⟨other, hother, heq⟩ := List.mem_map.mp hasic
    exact heq ▸ hwire other hother

/-- The address of an item, once it has been on the wire, is that of the core whose number is the id of the
item modulo the number of cores. -/
theorem layout_agrees
    (hsame : boards.map (fun b => (b.1, b.2.length)) = s.boards.map fun b => (b.1, b.2.toNat))
    (hasics : (s.boards.map Prod.fst).Nodup) (hwire : ∀ board ∈ s.boards, board.1 < 8)
    (hpos : 1 ≤ s.coreCount) (hlt : s.coreCount < UInt32.size) :
    ∃ cores, CoreMap.empty.registerAll boards = .ok cores ∧
      ∀ id : UInt16,
        search s.boards (UInt32.ofNat (id.toNat % s.coreCount)) = .found (s.addressFor id) ∧
        ∀ (kind : ReplyKind) (number : UInt16) (nonce : UInt32) (out : List UInt8),
          Wire.recordLength ≤ out.length →
            ∃ slot record, (ReplyRecord.mk kind (s.addressFor id) number nonce).encode? out = some slot ∧
              ReplyRecord.decode? slot = some record ∧ record.address = s.addressFor id ∧
              cores.resolve record.address = some ⟨id.toNat % s.coreCount⟩ := by
  have hmounted := mounted_of_counts hsame hasics hwire hpos hlt
  obtain ⟨cores, hcores, hlaid⟩ := CoreMap.registerAll_laid hmounted.asics
  refine ⟨cores, hcores, ?_⟩
  intro id
  have hmod : id.toNat % s.coreCount < s.coreCount := Nat.mod_lt _ hpos
  have hslot : (UInt32.ofNat (id.toNat % s.coreCount)).toNat = id.toNat % s.coreCount :=
    toNat_cores (by omega)
  constructor
  · obtain ⟨address, hfound⟩ : ∃ address,
        search s.boards (UInt32.ofNat (id.toNat % s.coreCount)) = .found address :=
      exists_found (by rwa [hslot, ← coreCount_eq_sum])
    rw [hfound, addressFor, Nat.max_eq_left hpos, locate_of_found hfound]
  · intro kind number nonce out hout
    obtain ⟨slot, hslot, hdecode⟩ := ReplyRecord.decode_encode? ⟨kind, s.addressFor id, number, nonce⟩ hout
    have haddress : (ReplyRecord.mk kind (s.addressFor id) number nonce).onWire.address = s.addressFor id := by
      rw [ReplyRecord.onWire_eq_mod, UInt8.mod_eq_of_lt (hmounted.asic_addressFor_lt id)]
    refine ⟨slot, _, hslot, hdecode, haddress, ?_⟩
    rw [haddress]
    exact hmounted.resolve hlaid id

/-- Boards without cores at both ends and in between, and asics in no order. -/
theorem layout_agrees_gaps :
    let s : SimulatorSettings := { SimulatorSettings.standard with boards := [(6, 0), (3, 2), (0, 0), (1, 3), (2, 0)] }
    let boards : List (UInt8 × List UInt8) := [(6, []), (3, [3, 0]), (0, []), (1, [3, 3, 0]), (2, [])]
    ∃ cores slot, CoreMap.empty.registerAll boards = .ok cores ∧
      search s.boards 3 = .found ⟨1, 1⟩ ∧
      (ReplyRecord.mk .done ⟨1, 1⟩ 8 0).encode? (List.replicate 12 0) = some slot ∧
      cores.resolve ⟨1, 1⟩ = some ⟨3⟩ := by
  intro s boards
  have hsame : boards.map (fun b => (b.1, b.2.length)) = s.boards.map fun b => (b.1, b.2.toNat) := by decide
  obtain ⟨cores, hcores, hall⟩ := layout_agrees hsame (by decide) (by simp [s]) (by decide) (by decide)
  obtain ⟨hfound, hwire⟩ := hall 8
  obtain ⟨slot, record, hslot, _, haddress, hresolve⟩ := hwire .done 8 0 (List.replicate 12 0) (by decide)
  have hplace : s.addressFor 8 = ⟨1, 1⟩ := by decide
  have hnumber : (8 : UInt16).toNat % s.coreCount = 3 := by decide
  rw [haddress, hnumber] at hresolve
  rw [hnumber] at hfound
  rw [hplace] at hfound hslot hresolve
  exact ⟨cores, slot, hcores, hfound, hslot, hresolve⟩

end SimulatorSettings

end Hashboard
