import Hashboard.Poll
import Hashboard.Simulator
import Hashboard.Proofs.Frame
import Hashboard.Proofs.InFlight
import Hashboard.Proofs.Packing
import Hashboard.Proofs.WorkQueue

/-!
# What a cycle transmits

The transmit buffer of a cycle is a flush frame if one is due, then a submission for each item sent, then
filler. The items sent are a front part of the fresh ones, as many as there is room for.
-/

namespace Hashboard

namespace Poller

/-- The submission frames of items that get the ids from `place` on. -/
def framesFrom (table : InFlight) : (place : Nat) → List Item → List (List UInt8)
  | _, [] => []
  | place, item :: rest =>
    Frame.submission (table.idAt place) item.work :: framesFrom table (place + 1) rest

variable {table : InFlight}

@[simp] theorem framesFrom_length {place : Nat} {items : List Item} :
    (framesFrom table place items).length = items.length := by
  induction items generalizing place with
  | nil => rfl
  | cons item rest ih => simp [framesFrom, ih]

theorem mem_framesFrom_length {place : Nat} {items : List Item} :
    ∀ frame ∈ framesFrom table place items, frame.length = Wire.frameLength := by
  induction items generalizing place with
  | nil => simp [framesFrom]
  | cons item rest ih =>
      intro frame hf
      rcases List.mem_cons.mp hf with rfl | hf
      · exact Frame.submission_length _ _
      · exact ih frame hf

/-- As many items are packed as whole frames fit. -/
theorem pack_eq (table : InFlight) (place : Nat) (items : List Item) {b : Buffers} {length : Nat}
    {content : List UInt8} (h : b.Holds length false content) :
    let n := (length - content.length) / Wire.frameLength
    (pack table place items b).1 = items.take n ∧
      (pack table place items b).2.Holds length false
        (content ++ (framesFrom table place (items.take n)).flatten) := by
  induction items generalizing place b content with
  | nil => simpa [pack, framesFrom] using h
  | cons item rest ih =>
      let frame := Frame.submission (table.idAt place) item.work
      have hlen : frame.length = Wire.frameLength := Frame.submission_length _ _
      by_cases hfit : Wire.frameLength ≤ length - content.length
      · obtain ⟨hemit, hb⟩ := h.emit (Nat.le_trans (Nat.le_of_eq hlen) hfit)
        have hroom : (length - content.length) / Wire.frameLength =
            (length - (content ++ frame).length) / Wire.frameLength + 1 := by
          rw [List.length_append, hlen]
          simp only [Wire.frameLength] at hfit ⊢
          omega
        obtain ⟨hsent, hpacked⟩ := ih (place + 1) hb
        have hsplit : b.emit frame = (true, (b.emit frame).2) := Prod.ext hemit rfl
        simp only [pack, show b.emit (Frame.submission (table.idAt place) item.work) = _ from hsplit,
          hroom, List.take_succ_cons, framesFrom, List.flatten_cons, hsent]
        refine ⟨trivial, ?_⟩
        rw [← List.append_assoc]
        exact hpacked
      · have hlong : length - content.length < frame.length := by omega
        have hnone : (length - content.length) / Wire.frameLength = 0 :=
          Nat.div_eq_of_lt (Nat.not_le.mp hfit)
        simp only [pack, show b.emit (Frame.submission (table.idAt place) item.work) = _ from h.refuse hlong,
          hnone, List.take_zero, framesFrom, List.flatten_nil, List.append_nil]
        exact ⟨trivial, h⟩

/-! ## The beginning of a cycle -/

section Begin

variable (p : Poller) (clock : EpochClock) (now : Instant) (q : WorkQueue)

def flushFrames (due : Bool) : List (List UInt8) :=
  if due then [Frame.flush] else []

@[simp] theorem flushFrames_length (due : Bool) : (flushFrames due).length = due.toNat := by
  cases due <;> rfl

theorem mem_flushFrames_length {due : Bool} :
    ∀ frame ∈ flushFrames due, frame.length = Wire.frameLength := by
  cases due <;> simp [flushFrames]

theorem begin_flushing : (p.begin clock now q).1.flushing = q.needFlush := rfl

theorem begin_rest : (p.begin clock now q).2 = beginQueue q clock now := rfl

@[simp] theorem items_beginQueue :
    (beginQueue q clock now).items.toList = WorkQueue.freshOf clock q.items.toList := by
  simp [beginQueue, WorkQueue.disarmFlush, WorkQueue.settlePollRequest]

@[simp] theorem needFlush_beginQueue : (beginQueue q clock now).needFlush = false := rfl

private theorem begin_packed :
    (p.begin clock now q).1.sent =
        (WorkQueue.freshOf clock q.items.toList).take (Wire.framesPerTransaction - q.needFlush.toNat) ∧
      (p.begin clock now q).1.buffers.Holds Wire.transactionLength false
        (flushFrames q.needFlush ++ framesFrom p.table 0 (p.begin clock now q).1.sent).flatten := by
  have hstart : (if q.needFlush then ((Buffers.empty Wire.transactionLength).emit Frame.flush).2
      else Buffers.empty Wire.transactionLength).Holds Wire.transactionLength false
        (flushFrames q.needFlush).flatten := by
    cases q.needFlush with
    | false => exact Buffers.holds_empty _
    | true => exact ((Buffers.holds_empty _).emit (by decide)).2
  obtain ⟨hsent, hpacked⟩ := pack_eq p.table 0 (WorkQueue.freshOf clock q.items.toList) hstart
  have hroom : (Wire.transactionLength - (flushFrames q.needFlush).flatten.length) / Wire.frameLength =
      Wire.framesPerTransaction - q.needFlush.toNat := by
    cases q.needFlush <;> rfl
  rw [hroom] at hsent hpacked
  rw [List.flatten_append]
  simp only [begin, items_beginQueue, hsent]
  exact ⟨trivial, hpacked⟩

/-- The items sent are the fresh ones in front, as many as fit behind a flush frame that is due. -/
theorem begin_sent :
    (p.begin clock now q).1.sent =
      (WorkQueue.freshOf clock q.items.toList).take (Wire.framesPerTransaction - q.needFlush.toNat) :=
  (begin_packed p clock now q).1

theorem begin_sent_length :
    (p.begin clock now q).1.sent.length + q.needFlush.toNat ≤ Wire.framesPerTransaction := by
  rw [begin_sent, List.length_take]
  have hflush : q.needFlush.toNat ≤ Wire.framesPerTransaction :=
    Nat.le_trans (Bool.toNat_le _) (by decide)
  omega

theorem begin_sent_fits : (p.begin clock now q).1.sent.length ≤ Wire.idSpace := by
  have hfew := begin_sent_length p clock now q
  have hspace : Wire.framesPerTransaction ≤ Wire.idSpace := by decide
  omega

theorem begin_length :
    (p.begin clock now q).1.buffers.length = Wire.transactionLength :=
  (begin_packed p clock now q).2.length_eq

theorem begin_pad_length :
    (p.begin clock now q).1.buffers.pad.length = Wire.transactionLength :=
  (begin_packed p clock now q).2.padded.length_eq

theorem mem_frames_length (due : Bool) (sent : List Item) :
    ∀ frame ∈ flushFrames due ++ framesFrom p.table 0 sent, frame.length = Wire.frameLength := by
  intro frame hf
  rcases List.mem_append.mp hf with hf | hf
  · exact mem_flushFrames_length frame hf
  · exact mem_framesFrom_length frame hf

/-- The transmit buffer: a flush frame if one is due, the submissions, and filler to the full length. -/
theorem begin_tx :
    let frames := flushFrames q.needFlush ++ framesFrom p.table 0 (p.begin clock now q).1.sent
    (p.begin clock now q).1.buffers.tx =
      frames.flatten ++ List.replicate (Wire.transactionLength - frames.flatten.length) Wire.nop :=
  (begin_packed p clock now q).2.tx

theorem flatten_frames_length (due : Bool) (sent : List Item) :
    (flushFrames due ++ framesFrom p.table 0 sent).flatten.length =
      Wire.frameLength * (due.toNat + sent.length) := by
  rw [Bytes.flatten_length (mem_frames_length p due sent), List.length_append, flushFrames_length,
    framesFrom_length, Nat.mul_comm]

theorem begin_tx_length : (p.begin clock now q).1.buffers.tx.length = Wire.transactionLength := by
  have hcount := begin_sent_length p clock now q
  rw [begin_tx, List.length_append, List.length_replicate, flatten_frames_length]
  simp only [Wire.framesPerTransaction, Wire.transactionLength, Wire.frameLength] at hcount ⊢
  omega

/-- The pieces of the filler behind `count` frames: whole ones, and the short one at the end. -/
def fillerFrames (count : Nat) : List (List UInt8) :=
  Bytes.pieces Wire.frameLength (Wire.framesPerTransaction + 1 - count)
    (List.replicate (Wire.transactionLength - Wire.frameLength * count) Wire.nop)

theorem mem_fillerFrames {count : Nat} {piece : List UInt8} (h : piece ∈ fillerFrames count) :
    ∃ k, piece = List.replicate k Wire.nop :=
  Bytes.mem_pieces_replicate h

/-- Cut into frames, the transmit buffer is a flush frame if one is due, the submissions, and filler. -/
theorem begin_frames_eq :
    Simulator.frames (p.begin clock now q).1.buffers.tx =
      flushFrames q.needFlush ++ framesFrom p.table 0 (p.begin clock now q).1.sent ++
        fillerFrames (q.needFlush.toNat + (p.begin clock now q).1.sent.length) := by
  let sent := (p.begin clock now q).1.sent
  have hcount : q.needFlush.toNat + sent.length ≤ Wire.framesPerTransaction := by
    rw [Nat.add_comm]
    exact begin_sent_length p clock now q
  have hlength : (flushFrames q.needFlush ++ framesFrom p.table 0 sent).length =
      q.needFlush.toNat + sent.length := by
    rw [List.length_append, flushFrames_length, framesFrom_length]
  have hpieces : (Wire.transactionLength + (Wire.frameLength - 1)) / Wire.frameLength =
      q.needFlush.toNat + sent.length +
        (Wire.framesPerTransaction + 1 - (q.needFlush.toNat + sent.length)) := by
    rw [Nat.add_sub_cancel' (Nat.le_succ_of_le hcount)]
    decide
  rw [Simulator.frames, begin_tx_length, hpieces, begin_tx, flatten_frames_length, ← hlength]
  exact Bytes.pieces_append (mem_frames_length p _ _) _ _

theorem begin_frames :
    ∃ filler : List (List UInt8), (∀ piece ∈ filler, ∃ k, piece = List.replicate k Wire.nop) ∧
      Simulator.frames (p.begin clock now q).1.buffers.tx =
        flushFrames q.needFlush ++ framesFrom p.table 0 (p.begin clock now q).1.sent ++ filler :=
  ⟨_, fun _ => mem_fillerFrames, begin_frames_eq p clock now q⟩

end Begin

/-! ## The submissions of a cycle -/

end Poller

/-- The submissions that the boards read in the transmit buffer of a cycle. -/
def PollCycle.submissions (cycle : PollCycle) : List Frame.Submission :=
  (Simulator.frames cycle.buffers.tx).filterMap Frame.decodeSubmission?

namespace Poller

variable (p : Poller) (clock : EpochClock) (now : Instant) (q : WorkQueue)

theorem submissions_framesFrom (table : InFlight) (place : Nat) (items : List Item) :
    (framesFrom table place items).filterMap Frame.decodeSubmission? =
      items.mapIdx fun k item => Frame.carried (table.idAt (place + k)) item.work := by
  induction items generalizing place with
  | nil => rfl
  | cons item rest ih =>
      simp only [framesFrom, List.filterMap_cons, Frame.decode_submission, ih, List.mapIdx_cons,
        Nat.add_zero]
      congr
      funext k item
      rw [Nat.add_assoc, Nat.add_comm 1 k]

/-- The boards read one submission for each item sent, in order. -/
theorem begin_submissions :
    (p.begin clock now q).1.submissions =
      (p.begin clock now q).1.sent.mapIdx fun k item => Frame.carried (p.table.idAt k) item.work := by
  obtain ⟨filler, hfiller, hframes⟩ := begin_frames p clock now q
  have hskip : filler.filterMap Frame.decodeSubmission? = [] := by
    refine List.filterMap_eq_nil_iff.mpr ?_
    intro piece hp
    obtain ⟨k, rfl⟩ := hfiller piece hp
    exact Frame.decode_filler k
  have hflush : (flushFrames q.needFlush).filterMap Frame.decodeSubmission? = [] := by
    cases q.needFlush <;> simp [flushFrames, Frame.decode_flush]
  rw [PollCycle.submissions, hframes, List.filterMap_append, List.filterMap_append, hskip, hflush,
    submissions_framesFrom]
  simp

end Poller

end Hashboard
