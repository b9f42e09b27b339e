import Hashboard.Proofs.Transmission

/-!
# What the boards are asked for

The boards go through a transmit buffer frame by frame and stop at the first frame that is no request. All
that they do hangs on the requests in front of it (`walk_eq`). Of a cycle they read a flush if one is due,
then the ids of the items sent, and they stop at the filler (`transmits`).
-/

namespace Hashboard

/-- What a frame asks of the boards. -/
inductive Request where
  | flush
  | submit (id : UInt16)
  deriving DecidableEq, Repr

namespace Request

/-! ## Reading frames -/

def ofFrame? (frame : List UInt8) : Option Request :=
  if Frame.request frame = Wire.flushRequest then
    some flush
  else
    (Frame.decodeSubmission? frame).map fun submission => submit submission.id

/-- The requests in front of the first frame that is none. -/
def read : List (List UInt8) → List Request
  | [] => []
  | frame :: rest =>
    match ofFrame? frame with
    | some request => request :: read rest
    | none => []

theorem ofFrame?_flush : ofFrame? Frame.flush = some flush := by
  rw [ofFrame?, if_pos Frame.request_flush]

theorem ofFrame?_submission (id : UInt16) (w : Work) :
    ofFrame? (Frame.submission id w) = some (submit (id &&& Wire.idMask)) := by
  rw [ofFrame?, Frame.request_submission, if_neg (by decide), Frame.decode_submission]
  rfl

theorem ofFrame?_filler (k : Nat) : ofFrame? (List.replicate k Wire.nop) = none := by
  rw [ofFrame?, Frame.request_filler, if_neg (by decide), Frame.decode_filler]
  rfl

theorem read_filler {filler : List (List UInt8)}
    (h : ∀ piece ∈ filler, ∃ k, piece = List.replicate k Wire.nop) : read filler = [] := by
  cases filler with
  | nil => rfl
  | cons piece rest =>
      obtain ⟨k, rfl⟩ := h piece (by simp)
      simp only [read, ofFrame?_filler]

theorem read_framesFrom (table : InFlight) (place : Nat) (items : List Item) (behind : List (List UInt8)) :
    read (Poller.framesFrom table place items ++ behind) =
      (List.range' place items.length).map (fun k => submit (table.idAt k)) ++ read behind := by
  induction items generalizing place with
  | nil => rfl
  | cons item rest ih =>
      simp only [Poller.framesFrom, List.cons_append, read, ofFrame?_submission, InFlight.idAt_masked, ih,
        List.length_cons, List.range'_succ, List.map_cons]

/-- What the boards read in the frames of a cycle. -/
theorem read_frames (table : InFlight) (due : Bool) (sent : List Item) {filler : List (List UInt8)}
    (h : ∀ piece ∈ filler, ∃ k, piece = List.replicate k Wire.nop) :
    read (Poller.flushFrames due ++ Poller.framesFrom table 0 sent ++ filler) =
      List.replicate due.toNat flush ++ (List.range sent.length).map fun k => submit (table.idAt k) := by
  have hsubmissions : read (Poller.framesFrom table 0 sent ++ filler) =
      (List.range sent.length).map fun k => submit (table.idAt k) := by
    rw [read_framesFrom, read_filler h, List.append_nil, List.range_eq_range']
  rw [List.append_assoc]
  cases due with
  | true => simp [Poller.flushFrames, read, ofFrame?_flush, hsubmissions]
  | false => simp [Poller.flushFrames, hsubmissions]

end Request

namespace Admission

/-- The boards after a request. -/
def grant (a : Admission) : Request → Admission
  | .flush => a.flush
  | .submit id => a.offer id

/-- The boards do what is asked in front of the first frame that is no request, and nothing else. -/
theorem walk_eq (a : Admission) (frames : List (List UInt8)) :
    a.walk frames = (Request.read frames).foldl grant a := by
  induction frames generalizing a with
  | nil => rfl
  | cons frame rest ih =>
      simp only [walk, Request.read, Request.ofFrame?]
      split
      · exact ih a.flush
      · cases hd : Frame.decodeSubmission? frame with
        | none => rfl
        | some submission => exact ih (a.offer submission.id)

end Admission

/-! ## The requests of a cycle -/

namespace Poller

/-- Behind the frames there is always some filler: a whole piece, or at least the short one at the end. -/
theorem fillerFrames_eq_cons {count : Nat} (h : count ≤ Wire.framesPerTransaction) :
    ∃ stop rest, fillerFrames count = stop :: rest ∧
      (stop = List.replicate Wire.frameLength Wire.nop ∨ stop = List.replicate 16 Wire.nop ∧ rest = []) := by
  have hpieces : Wire.framesPerTransaction + 1 - count = Wire.framesPerTransaction - count + 1 := by omega
  rw [fillerFrames, hpieces, Bytes.pieces, List.take_replicate]
  refine ⟨_, _, rfl, ?_⟩
  simp only [Wire.framesPerTransaction, Wire.transactionLength, Wire.frameLength] at h ⊢
  rcases Nat.lt_or_eq_of_le h with hlt | rfl
  · exact Or.inl (by rw [Nat.min_eq_left (by omega)])
  · exact Or.inr ⟨rfl, rfl⟩

theorem flushFrames_eq (due : Bool) : flushFrames due = List.replicate due.toNat Frame.flush := by
  cases due <;> rfl

theorem framesFrom_getElem? (table : InFlight) (place : Nat) (items : List Item) (i : Nat) :
    (framesFrom table place items)[i]? =
      items[i]?.map fun item => Frame.submission (table.idAt (place + i)) item.work := by
  induction items generalizing place i with
  | nil => rfl
  | cons item rest ih =>
      cases i with
      | zero => rfl
      | succ i => simpa [framesFrom, Nat.add_assoc, Nat.add_comm 1] using ih (place + 1) i

theorem begin_sent_eq_take (p : Poller) (clock : EpochClock) (now : Instant) (q : WorkQueue) :
    (p.begin clock now q).1.sent =
      (WorkQueue.freshOf clock q.items.toList).take (p.begin clock now q).1.sent.length := by
  rw [begin_sent, List.length_take, List.take_eq_take_min, Nat.min_comm]

theorem read_begin (p : Poller) (clock : EpochClock) (now : Instant) (q : WorkQueue) :
    Request.read (Simulator.frames (p.begin clock now q).1.buffers.tx) =
      List.replicate q.needFlush.toNat .flush ++
        (List.range (p.begin clock now q).1.sent.length).map fun i => .submit (p.table.idAt i) := by
  rw [begin_frames_eq]
  exact Request.read_frames _ _ _ fun _ => mem_fillerFrames

/-- What a cycle transmits, and what the boards read in it. -/
theorem transmits (p : Poller) (clock : EpochClock) (now : Instant) (q : WorkQueue) :
    let fresh := q.items.toList.filter fun item => !clock.isStale .relaxed item
    let tx := (p.begin clock now q).1.buffers.tx
    let flushes := List.replicate q.needFlush.toNat Frame.flush
    (∀ {β : Type} [Bus β] (bus : β),
      (p.cycle clock now q bus).2.2.2 = (Bus.exchange bus tx Wire.transactionLength).2) ∧
    tx.length = 4096 ∧
    ∃ frames : List (List UInt8),
      frames.length = min fresh.length (85 - q.needFlush.toNat) ∧
      (p.begin clock now q).1.sent = fresh.take frames.length ∧
      tx = flushes.flatten ++ frames.flatten ++
        List.replicate (4096 - 48 * (q.needFlush.toNat + frames.length)) Wire.nop ∧
      (∀ (i : Nat) (frame : List UInt8), frames[i]? = some frame → frame.length = 48 ∧
        ∃ item, fresh[i]? = some item ∧ Frame.decodeSubmission? frame =
          some ⟨p.table.idAt i, item.work.midstate.toList, item.work.tail⟩) ∧
      (∃ stop rest, Simulator.frames tx = flushes ++ frames ++ stop :: rest ∧
        (stop = List.replicate 48 Wire.nop ∨ stop = List.replicate 16 Wire.nop ∧ rest = []) ∧
        ∀ a : Admission, a.walk (stop :: rest) = a) ∧
      ∀ a : Admission, a.walk (Simulator.frames tx) =
        (List.replicate q.needFlush.toNat Request.flush ++
          (List.range frames.length).map fun i => Request.submit (p.table.idAt i)).foldl Admission.grant a := by
  intro fresh tx flushes
  let sent := (p.begin clock now q).1.sent
  have hsent : sent = fresh.take sent.length := begin_sent_eq_take p clock now q
  have hlength : (framesFrom p.table 0 sent).length = sent.length := framesFrom_length
  refine ⟨fun bus => ?_, begin_tx_length p clock now q, framesFrom p.table 0 sent, ?_, ?_, ?_, ?_, ?_, ?_⟩
  · rw [← begin_length p clock now q]
    rfl
  · rw [hlength, Nat.min_comm]
    exact (congrArg List.length (begin_sent p clock now q)).trans List.length_take
  · rw [hlength]
    exact hsent
  · have htx := begin_tx p clock now q
    simp only [flatten_frames_length] at htx
    rw [List.flatten_append, flushFrames_eq] at htx
    rw [hlength]
    exact htx
  · intro i frame hi
    refine ⟨mem_framesFrom_length frame (List.mem_of_getElem? hi), ?_⟩
    rw [framesFrom_getElem?, Option.map_eq_some_iff] at hi
    obtain ⟨item, hitem, rfl⟩ := hi
    have hfresh : fresh[i]? = some item := by
      rw [hsent, List.getElem?_take] at hitem
      split at hitem
      · exact hitem
      · cases hitem
    refine ⟨item, hfresh, ?_⟩
    rw [Frame.decode_submission, Frame.carried, InFlight.idAt_masked, Nat.zero_add]
  · have hcount : q.needFlush.toNat + sent.length ≤ Wire.framesPerTransaction := by
      rw [Nat.add_comm]
      exact begin_sent_length p clock now q
    obtain ⟨stop, rest, hfiller, hstop⟩ := fillerFrames_eq_cons hcount
    refine ⟨stop, rest, ?_, hstop, ?_⟩
    · rw [begin_frames_eq, hfiller, flushFrames_eq]
    · intro a
      rw [Admission.walk_eq, ← hfiller, Request.read_filler fun _ => mem_fillerFrames]
      rfl
  · intro a
    rw [Admission.walk_eq, read_begin, hlength]

/-- A flush is due, one of three items is stale, and the ids wrap between the other two. -/
theorem transmits_wrapping :
    let item (handle : Nat) (epoch : UInt64) : Item :=
      ⟨handle, .replicate Wire.midstateLength 7, .replicate Wire.dataLength 9, epoch⟩
    let p : Poller := ⟨"knc0", .empty, Wire.pollIntervalMicros, { InFlight.empty with nextId := 0x7fff }⟩
    let q := { WorkQueue.empty with items := #[item 0 1, item 1 2, item 2 2], needFlush := true }
    let tx := (p.begin (.start 2) 0 q).1.buffers.tx
    ∃ frames : List (List UInt8), frames.length = 2 ∧
      tx = Frame.flush ++ frames.flatten ++ List.replicate 3952 Wire.nop ∧
      (Admission.walk ⟨[5, 6], [], 4, 0, false⟩ (Simulator.frames tx)).pending = [0x7fff, 0] := by
  intro item p q tx
  obtain ⟨_, _, frames, hlength, _, htx, _, _, hwalk⟩ := transmits p (.start 2) 0 q
  have hcount : frames.length = 2 := hlength
  rw [hcount] at htx hwalk
  refine ⟨frames, hcount, htx, ?_⟩
  rw [hwalk]
  decide

end Poller

end Hashboard
