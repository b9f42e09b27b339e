import Hashboard.Frame
import Hashboard.Proofs.Bytes

/-!
# What the boards read in a frame

A submission frame reads back as what was put into it. Flush frames and filler are no submissions.
-/

namespace Hashboard

@[simp] theorem Work.tail_length (w : Work) : w.tail.length = Wire.tailLength := by
  have hdata : w.data.toList.length = Wire.dataLength := Vector.length_toList
  rw [tail, Bytes.slice, List.length_take, List.length_drop, hdata]
  decide

namespace Frame

@[simp] theorem submission_length (id : UInt16) (w : Work) :
    (submission id w).length = Wire.frameLength := by
  have hmid : w.midstate.toList.length = Wire.midstateLength := Vector.length_toList
  simp only [submission, List.length_append, List.length_reverse, Bytes.ofNat_length,
    Work.tail_length, hmid]
  decide

@[simp] theorem flush_length : flush.length = Wire.frameLength := by decide

theorem request_submission (id : UInt16) (w : Work) :
    request (submission id w) = Wire.submitRequest := by
  simp only [request, submission, List.cons_append, List.headD_cons]
  decide

theorem request_flush : request flush = Wire.flushRequest := by decide

theorem request_filler (k : Nat) : request (List.replicate k Wire.nop) = 0 := by
  cases k with
  | zero => decide
  | succ k => simp only [request, List.replicate_succ, List.headD_cons]; decide

/-- What a submission of `w` under `id` carries. -/
def carried (id : UInt16) (w : Work) : Submission :=
  ⟨id &&& Wire.idMask, w.midstate.toList, w.tail⟩

theorem decode_submission (id : UInt16) (w : Work) :
    decodeSubmission? (submission id w) = some (carried id w) := by
  have hid : Bytes.u16At 2 (submission id w) = id &&& Wire.idMask := by
    simp only [submission, List.append_assoc]
    exact Bytes.u16At_append rfl
  have hmid : Bytes.slice 4 Wire.midstateLength (submission id w) = w.midstate.toList.reverse := by
    rw [submission, List.append_assoc]
    exact Bytes.slice_append (by rw [List.length_append, Bytes.ofNat_length]; rfl)
      (by rw [List.length_reverse]; exact Vector.length_toList)
  have htail : Bytes.slice (4 + Wire.midstateLength) Wire.tailLength (submission id w) =
      w.tail.reverse := by
    have hlen : w.midstate.toList.length = Wire.midstateLength := Vector.length_toList
    have hsplit : submission id w = ([Wire.commandByte Wire.submitRequest, 0] ++
        Bytes.ofNat 2 (id &&& Wire.idMask).toNat ++ w.midstate.toList.reverse) ++
          (w.tail.reverse ++ []) := by simp [submission]
    rw [hsplit]
    refine Bytes.slice_append ?_ (by rw [List.length_reverse, Work.tail_length])
    simp only [List.length_append, List.length_reverse, Bytes.ofNat_length, hlen]
    rfl
  have hwhole : ¬ ((submission id w).length < Wire.frameLength ∨
      request (submission id w) ≠ Wire.submitRequest) := by
    simp [request_submission]
  rw [decodeSubmission?, if_neg hwhole, hid, hmid, htail, carried]
  simp [UInt16.and_assoc]

theorem decode_other {frame : List UInt8} (h : request frame ≠ Wire.submitRequest) :
    decodeSubmission? frame = none := by
  simp [decodeSubmission?, h]

theorem decode_flush : decodeSubmission? flush = none :=
  decode_other (by rw [request_flush]; decide)

theorem decode_filler (k : Nat) : decodeSubmission? (List.replicate k Wire.nop) = none :=
  decode_other (by rw [request_filler]; decide)

end Frame

end Hashboard
