import Hashboard.Proofs.Requests

/-!
# Submission frames

A submission frame says what it has to say and nothing else: it reads back as it was written, whatever is read
is written as it was but for the bits that no submission uses, and two frames are equal only if they submit
the same (`submission_round_trip`).
-/

namespace Hashboard

namespace Work

variable {w w' : Work}

theorem tail_getElem? (w : Work) (k : Nat) :
    w.tail[k]? = if k < Wire.tailLength then w.data[Wire.tailOffset + k]? else none := by
  rw [tail, Bytes.slice, List.getElem?_take, List.getElem?_drop, Vector.getElem?_toList]

theorem tail_congr (h : ∀ i, 0x40 ≤ i → i < 0x4c → w.data[i]? = w'.data[i]?) : w.tail = w'.tail := by
  refine List.ext_getElem? fun k => ?_
  rw [tail_getElem?, tail_getElem?]
  split
  · rename_i hk
    refine h _ (Nat.le_add_right _ _) ?_
    simp only [Wire.tailLength, Wire.tailOffset] at hk ⊢
    omega
  · rfl

end Work

namespace Frame

variable {bytes : List UInt8} {s : Submission} {id id' : UInt16} {w w' : Work}

/-- The first frame of some bytes without the bits that no submission uses: the low four of the first byte, the
second byte, and the top bit of the third. -/
def usedBits (bytes : List UInt8) : List UInt8 :=
  (((bytes.take Wire.frameLength).modify 0 (· &&& 0xf0)).set 1 0).modify 2 (· &&& 0x7f)

/-- All that can be read is what is long enough and carries the right request. -/
theorem decode_eq_some_iff : decodeSubmission? bytes = some s ↔
    Wire.frameLength ≤ bytes.length ∧ request bytes = Wire.submitRequest ∧
      s = ⟨Bytes.u16At 2 bytes &&& Wire.idMask, (Bytes.slice 4 Wire.midstateLength bytes).reverse,
        (Bytes.slice (4 + Wire.midstateLength) Wire.tailLength bytes).reverse⟩ := by
  rw [decodeSubmission?]
  split
  · rename_i hbad
    constructor
    · intro h
      cases h
    · rintro ⟨hlen, hrequest, _⟩
      rcases hbad with hshort | hother
      · omega
      · exact absurd hrequest hother
  · rename_i hgood
    rw [not_or, Nat.not_lt, not_not] at hgood
    rw [Option.some.injEq]
    exact ⟨fun h => ⟨hgood.1, hgood.2, h.symm⟩, fun h => h.2.2.symm⟩

private theorem head_used : ∀ n : Fin 256, UInt8.ofFin n >>> 4 = 2 → UInt8.ofFin n &&& 0xf0 = 0x20 := by
  decide +kernel

/-- What was read is written as the used bits of the bytes that it was read from. -/
theorem submission_of_decode (h : decodeSubmission? bytes = some s) (hmid : w.midstate.toList = s.midstate)
    (htail : w.tail = s.tail) : submission s.id w = usedBits bytes := by
  obtain ⟨hlen, hrequest, rfl⟩ := decode_eq_some_iff.mp h
  match bytes, hlen with
  | b₀ :: b₁ :: b₂ :: b₃ :: body, _ =>
    have hhead : b₀ &&& 0xf0 = 0x20 := head_used b₀.toFin hrequest
    have hid : Bytes.u16At 2 (b₀ :: b₁ :: b₂ :: b₃ :: body) = UInt16.ofNat (Bytes.toNat [b₂, b₃]) := rfl
    have hbody : Bytes.slice 4 32 (b₀ :: b₁ :: b₂ :: b₃ :: body) ++
        Bytes.slice 36 12 (b₀ :: b₁ :: b₂ :: b₃ :: body) = body.take 44 := by
      simp only [Bytes.slice, List.drop_succ_cons, List.drop_zero]
      exact List.take_add.symm
    rw [submission, hmid, htail]
    simp only [List.reverse_reverse, hid, UInt16.and_assoc, UInt16.and_self, Bytes.ofNat_id,
      List.append_assoc, Wire.midstateLength, Wire.tailLength, Nat.reduceAdd, hbody]
    simp only [usedBits, Wire.frameLength, List.take_succ_cons, List.modify_zero_cons, hhead]
    rfl

theorem exists_work (h : decodeSubmission? bytes = some s) :
    ∃ w : Work, w.midstate.toList = s.midstate ∧ w.tail = s.tail := by
  obtain ⟨hlen, _, rfl⟩ := decode_eq_some_iff.mp h
  have hmid : (Bytes.slice 4 Wire.midstateLength bytes).reverse.length = Wire.midstateLength := by
    rw [List.length_reverse, Bytes.slice_length (Nat.le_trans (by decide) hlen)]
  have htail : (Bytes.slice (4 + Wire.midstateLength) Wire.tailLength bytes).reverse.length = Wire.tailLength := by
    rw [List.length_reverse, Bytes.slice_length hlen]
  generalize (Bytes.slice 4 Wire.midstateLength bytes).reverse = midstate at hmid
  generalize (Bytes.slice (4 + Wire.midstateLength) Wire.tailLength bytes).reverse = tail at htail
  let data := List.replicate Wire.tailOffset 0 ++ (tail ++ List.replicate 4 0)
  have hdata : data.length = Wire.dataLength := by
    simp only [data, List.length_append, List.length_replicate, htail]
    decide
  -- the bytes around the tail and the epoch are free
  refine ⟨⟨⟨midstate.toArray, hmid⟩, ⟨data.toArray, hdata⟩, 0⟩, rfl, ?_⟩
  exact Bytes.slice_append List.length_replicate htail

theorem submission_eq_iff : submission id w = submission id' w' ↔
    id % 32768 = id' % 32768 ∧ w.midstate = w'.midstate ∧ w.tail = w'.tail := by
  constructor
  · intro h
    have hread := congrArg decodeSubmission? h
    rw [decode_submission, decode_submission, Option.some.injEq, carried, carried, Submission.mk.injEq,
      Bytes.and_idMask, Bytes.and_idMask, Vector.toList_inj] at hread
    exact hread
  · rintro ⟨hid, hmid, htail⟩
    rw [submission, submission, Bytes.and_idMask, Bytes.and_idMask, hid, hmid, htail]

/-- The boards take what reads as a submission for one, and for nothing else. -/
theorem walk_of_decode (h : decodeSubmission? bytes = some s) (a : Admission) (rest : List (List UInt8)) :
    a.walk (bytes :: rest) = (a.offer s.id).walk rest := by
  obtain ⟨_, hrequest, _⟩ := decode_eq_some_iff.mp h
  rw [Admission.walk, hrequest, if_neg (by decide), h]

/-- What is written and what is read. -/
theorem submission_round_trip :
    (∀ (id : UInt16) (w : Work), decodeSubmission? (submission id w) =
      some ⟨id % 32768, w.midstate.toList, w.data.toList.extract 0x40 0x4c⟩) ∧
    (∀ bytes : List UInt8,
      (∃ s, decodeSubmission? bytes = some s) ↔ 48 ≤ bytes.length ∧ bytes.headD 0 >>> 4 = 2) ∧
    (∀ bytes s, decodeSubmission? bytes = some s →
      (∃ w : Work, w.midstate.toList = s.midstate ∧ w.tail = s.tail) ∧
        ∀ w : Work, w.midstate.toList = s.midstate → w.tail = s.tail → submission s.id w = usedBits bytes) ∧
    (∀ (id id' : UInt16) (w w' : Work), submission id w = submission id' w' ↔
      id % 32768 = id' % 32768 ∧ w.midstate = w'.midstate ∧ w.tail = w'.tail) ∧
    (∀ (id : UInt16) (w w' : Work), w.midstate = w'.midstate →
      (∀ i, 0x40 ≤ i → i < 0x4c → w.data[i]? = w'.data[i]?) → submission id w = submission id w') ∧
    ∀ bytes s, decodeSubmission? bytes = some s →
      request bytes ≠ request flush ∧ (∀ k, request bytes ≠ request (List.replicate k Wire.nop)) ∧
        ∀ (a : Admission) (rest : List (List UInt8)), a.walk (bytes :: rest) = (a.offer s.id).walk rest := by
  refine ⟨?_, ?_, ?_, fun _ _ _ _ => submission_eq_iff, ?_, ?_⟩
  · intro id w
    rw [decode_submission, carried, Bytes.and_idMask]
    rfl
  · intro bytes
    constructor
    · rintro ⟨s, h⟩
      obtain ⟨hlen, hrequest, _⟩ := decode_eq_some_iff.mp h
      exact ⟨hlen, hrequest⟩
    · rintro ⟨hlen, hrequest⟩
      exact ⟨_, decode_eq_some_iff.mpr ⟨hlen, hrequest, rfl⟩⟩
  · intro bytes s h
    exact ⟨exists_work h, fun w => submission_of_decode h⟩
  · intro id w w' hmid hdata
    exact submission_eq_iff.mpr ⟨rfl, hmid, Work.tail_congr hdata⟩
  · intro bytes s h
    obtain ⟨_, hrequest, _⟩ := decode_eq_some_iff.mp h
    refine ⟨?_, fun k => ?_, walk_of_decode h⟩
    · rw [hrequest, request_flush]
      decide
    · rw [hrequest, request_filler]
      decide

/-- A frame with all unused bits set and one more byte behind it. -/
theorem submission_round_trip_loose :
    let bytes : List UInt8 := [0x2f, 0xff, 0xff, 0xff] ++ List.replicate 44 7 ++ [9]
    let w : Work := ⟨.replicate Wire.midstateLength 7, .replicate Wire.dataLength 7, 5⟩
    ∃ s, decodeSubmission? bytes = some s ∧ s.id = 0x7fff ∧
      submission s.id w = [0x20, 0, 0x7f, 0xff] ++ List.replicate 44 7 ∧
      ∀ a : Admission, a.walk [bytes] = a.offer 0x7fff := by
  intro bytes w
  obtain ⟨_, hreadable, hback, _, _, hwalk⟩ := submission_round_trip
  obtain ⟨s, hs⟩ := (hreadable bytes).mpr (by decide)
  obtain ⟨_, _, hfields⟩ := decode_eq_some_iff.mp hs
  have hid : s.id = 0x7fff := by rw [hfields]; decide
  refine ⟨s, hs, hid, ?_, fun a => ?_⟩
  · exact (hback bytes s hs).2 w (by rw [hfields]; decide) (by rw [hfields]; decide)
  · rw [(hwalk bytes s hs).2.2 a [], hid]
    rfl

end Frame

end Hashboard
