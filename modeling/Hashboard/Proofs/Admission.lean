import Hashboard.Proofs.Receipt
import Hashboard.Proofs.Simulator

/-!
# What simulated boards admit

Whatever bytes are sent to them, the boards never hold more items than their queue is deep: a request never
adds to the items and the free places together. Without a flush behind a submission the boards take a front
part of what is submitted, and the header of their reply tells how long it is (`admits`).
-/

namespace Hashboard

namespace Request

variable {frames : List (List UInt8)} {tx : List UInt8} {id : UInt16}

theorem length_of_mem_read (h : submit id ∈ read frames) : ∃ frame ∈ frames, Wire.frameLength ≤ frame.length := by
  induction frames with
  | nil => cases h
  | cons frame rest ih =>
      rw [read] at h
      cases hr : ofFrame? frame with
      | none => simp [hr] at h
      | some request =>
          rw [hr, List.mem_cons] at h
          rcases h with rfl | hrest
          · refine ⟨frame, by simp, ?_⟩
            unfold ofFrame? Frame.decodeSubmission? at hr
            split at hr
            · cases hr
            · split at hr
              · simp at hr
              · omega
          · obtain ⟨whole, hmem, hlen⟩ := ih hrest
            exact ⟨whole, List.mem_cons_of_mem _ hmem, hlen⟩

/-- Nothing can be submitted in less than a frame. -/
theorem submitted_of_short (h : tx.length < Wire.frameLength) : submitted (read (Simulator.frames tx)) = [] := by
  refine List.filterMap_eq_nil_iff.mpr ?_
  intro r hr
  cases r with
  | flush => rfl
  | submit id =>
      obtain ⟨frame, hmem, hlen⟩ := length_of_mem_read hr
      have hpart := (List.sublist_flatten_of_mem hmem).length_le
      rw [Simulator.frames, Bytes.pieces_flatten, List.length_take] at hpart
      omega

end Request

namespace Admission

/-! ## Requests in any order -/

theorem size_grant (a : Admission) (r : Request) :
    (a.grant r).pending.length + (a.grant r).room ≤ a.pending.length + a.room := by
  cases r with
  | flush => simp [grant, flush, pending]
  | submit id =>
      simp only [grant, offer]
      split
      · exact Nat.le_refl _
      · simp only [pending, List.length_append, List.length_reverse, List.length_cons]
        omega

/-- Items and free places together never grow. -/
theorem size_foldl_grant (a : Admission) (requests : List Request) :
    (requests.foldl grant a).pending.length + (requests.foldl grant a).room ≤ a.pending.length + a.room := by
  induction requests generalizing a with
  | nil => exact Nat.le_refl _
  | cons r rest ih => exact Nat.le_trans (ih (a.grant r)) (size_grant a r)

end Admission

namespace Simulator

variable {s : Simulator} {tx : List UInt8}

/-! ## One transaction -/

/-- The boards after some transactions, each given by what is sent and the length of the receive buffer. -/
def run (s : Simulator) (exchanges : List (List UInt8 × Nat)) : Simulator :=
  exchanges.foldl (fun s e => (s.exchange e.1 e.2).2) s

theorem exchange_mismatch {length : Nat} (h : tx.length ≠ length) :
    s.exchange tx length = (.failed (.lengthMismatch tx.length length), s) := by
  rw [exchange, if_pos h]

theorem exchange_misplaced (h : s.misplaced) (tx : List UInt8) :
    s.exchange tx tx.length = (.crashed, { s with pending := s.pending.drop 1 }) := by
  rw [exchange, if_neg (by simp), if_pos h]

/-- The header can be read off the reply. In a reply too short for it nothing was submitted. -/
theorem decode_reply : ReplyHeader.decode (s.reply tx) = s.afterCompletions.header (s.intake tx) := by
  rcases Nat.lt_or_ge tx.length Wire.headerLength with hshort | hlong
  · have hnone : Request.submitted (Request.read (frames tx)) = [] :=
      Request.submitted_of_short (Nat.lt_trans hshort (by decide))
    have hoffered : (s.intake tx).offered = 0 := by rw [offered_intake, hnone]; rfl
    have hrefused : (s.intake tx).refused = false := by rw [refused_intake, hnone]; rfl
    rw [reply, Reply.write, if_pos hshort, ReplyHeader.decode,
      if_pos (by rw [List.length_replicate]; exact hshort), header, hoffered, hrefused]
    rfl
  · exact Reply.decode_write hlong

/-! ## Any transactions -/

theorem length_intake (h : s.pending.length ≤ s.settings.queueDepth.toNat) :
    (s.intake tx).pending.length ≤ s.settings.queueDepth.toNat := by
  have hsize := Admission.size_foldl_grant ⟨s.kept, [], s.room, 0, false⟩ (Request.read (frames tx))
  have hkept : s.kept.length ≤ s.pending.length := by
    rw [kept, List.length_drop]
    exact Nat.sub_le _ _
  have hroom : s.room = s.settings.queueDepth.toNat - s.kept.length := rfl
  simp only [Admission.pending, List.reverse_nil, List.append_nil] at hsize
  simp only [intake, Admission.pending]
  omega

theorem settings_exchange (tx : List UInt8) (length : Nat) :
    (s.exchange tx length).2.settings = s.settings := by
  unfold exchange
  split
  · rfl
  · split <;> rfl

/-- A transaction never leaves more items on the boards than their queue is deep. -/
theorem length_exchange (h : s.pending.length ≤ s.settings.queueDepth.toNat) (tx : List UInt8) (length : Nat) :
    (s.exchange tx length).2.pending.length ≤ s.settings.queueDepth.toNat := by
  rcases eq_or_ne tx.length length with rfl | hne
  · cases hm : s.misplaced with
    | true =>
        rw [exchange_misplaced hm, List.length_drop]
        exact Nat.le_trans (Nat.sub_le _ _) h
    | false =>
        rw [exchange_received hm]
        exact length_intake h
  · rw [exchange_mismatch hne]
    exact h

theorem run_bounded (h : s.pending.length ≤ s.settings.queueDepth.toNat)
    (exchanges : List (List UInt8 × Nat)) :
    (s.run exchanges).settings = s.settings ∧
      (s.run exchanges).pending.length ≤ s.settings.queueDepth.toNat := by
  induction exchanges generalizing s with
  | nil => exact ⟨rfl, h⟩
  | cons e rest ih =>
      have hsettings := settings_exchange (s := s) e.1 e.2
      have hlength := length_exchange h e.1 e.2
      obtain ⟨hsame, hbound⟩ := ih (hsettings ▸ hlength)
      rw [hsettings] at hsame hbound
      exact ⟨hsame, hbound⟩

/-- What the boards hold after submissions in a row, and what their header tells of them. -/
theorem admitted_ordered {flushes : Nat} {ids : List UInt16}
    (h : Request.read (frames tx) = List.replicate flushes .flush ++ ids.map Request.submit) :
    let header := ReplyHeader.decode (s.reply tx)
    let taken := min header.accepted.toNat ids.length
    (s.intake tx).pending = (if flushes = 0 then s.kept else []) ++ ids.take taken ∧
      (header.overflow = true ↔ taken < ids.length) ∧ (ids = [] → header.accepted = 0) := by
  intro header taken
  have hsubmitted : Request.submitted (Request.read (frames tx)) = ids := by
    rw [h, Request.submitted_ordered]
  have hoverflow : header.overflow = decide (s.room < ids.length) := by
    rw [← hsubmitted, ← refused_intake]
    exact congrArg ReplyHeader.overflow decode_reply
  have haccepted := accepted_header s tx
  rw [← decode_reply, offered_intake, hsubmitted] at haccepted
  have htaken : taken = min s.room ids.length := by
    show min header.accepted.toNat ids.length = _
    rw [haccepted]
    split <;> omega
  refine ⟨?_, ?_, ?_⟩
  · rw [intake, h, Admission.pending_ordered, htaken, ← List.take_eq_take_min]
  · rw [hoverflow, htaken, decide_eq_true_eq]
    omega
  · rintro rfl
    rw [← UInt16.toNat_inj, haccepted]
    rfl

/-- What any transactions leave on the boards, and what the next transaction does if the items that finish in it
can be placed. -/
theorem admits (settings : SimulatorSettings) (exchanges : List (List UInt8 × Nat)) :
    let s := (start settings).run exchanges
    s.settings = settings ∧
    s.pending.length ≤ settings.queueDepth.toNat ∧
    (∀ tx length, tx.length ≠ length →
      s.exchange tx length = (.failed (.lengthMismatch tx.length length), s)) ∧
    (s.misplaced = false → ∀ tx, ∃ rx after, s.exchange tx tx.length = (.received rx, after) ∧
      ∀ flushes ids,
        Request.read (frames tx) = List.replicate flushes .flush ++ ids.map Request.submit →
          let header := ReplyHeader.decode rx
          let taken := min header.accepted.toNat ids.length
          after.pending =
            (if flushes = 0 then s.pending.drop settings.completionsPerPoll else []) ++ ids.take taken ∧
          (header.overflow = true ↔ taken < ids.length) ∧
          (ids = [] → header.accepted = 0)) ∧
    (s.misplaced = false → ∀ (p : Poller) (clock : EpochClock) (now : Instant) (q : WorkQueue),
      let cycle := (p.begin clock now q).1
      ∃ rx after, s.exchange cycle.buffers.tx cycle.buffers.length = (.received rx, after) ∧
        let taken := min (ReplyHeader.decode rx).accepted.toNat cycle.sent.length
        after.pending = (if cycle.flushing then [] else s.pending.drop settings.completionsPerPoll) ++
          (List.range taken).map p.table.idAt ∧
        (∀ queue, (p.finishReceived cycle rx (.sound queue)).poller.table =
          (Poller.insertAccepted (cycle.cleared p.table rx) (cycle.sent.take taken)).2) ∧
        (p.table.Sound → ∀ queue, ∃ kept, kept.Sublist p.table.live ∧
          (p.finishReceived cycle rx (.sound queue)).poller.table.live =
            kept ++ ((List.range taken).map p.table.idAt).zip (cycle.sent.take taken))) := by
  intro s
  obtain ⟨hsettings, hbound⟩ := run_bounded (s := start settings) (Nat.zero_le _) exchanges
  have hkept : s.kept = s.pending.drop settings.completionsPerPoll := by
    rw [kept, hsettings]
    rfl
  refine ⟨hsettings, hbound, fun _ _ => exchange_mismatch, ?_, ?_⟩
  · intro h tx
    refine ⟨_, _, exchange_received h _, ?_⟩
    intro flushes ids hread
    rw [← hkept]
    exact admitted_ordered hread
  · intro h p clock now q cycle
    have hlength : cycle.buffers.length = cycle.buffers.tx.length :=
      (Poller.begin_length p clock now q).trans (Poller.begin_tx_length p clock now q).symm
    obtain ⟨hpending, _, _⟩ := admitted_ordered (s := s) (read_cycle p clock now q)
    rw [hlength]
    have htable : ∀ queue, (p.finishReceived cycle (s.reply cycle.buffers.tx) (.sound queue)).poller.table =
        (Poller.insertAccepted (cycle.cleared p.table (s.reply cycle.buffers.tx))
          (cycle.taken (s.reply cycle.buffers.tx))).2 := by
      intro queue
      rw [Poller.finishReceived_poller, Poller.tableAfter]
    have htaken : cycle.taken (s.reply cycle.buffers.tx) = cycle.sent.take
        (min (ReplyHeader.decode (s.reply cycle.buffers.tx)).accepted.toNat cycle.sent.length) :=
      List.take_eq_take_min
    refine ⟨_, _, exchange_received h _, ?_, ?_, ?_⟩
    · rw [List.length_map, List.length_range, ← List.map_take, List.take_range, Nat.min_assoc,
        Nat.min_self] at hpending
      rw [hpending, hkept]
      cases (p.begin clock now q).1.flushing <;> rfl
    · intro queue
      rw [htable, htaken]
    · intro ht queue
      have hfit : (cycle.taken (s.reply cycle.buffers.tx)).length ≤ Wire.idSpace :=
        Nat.le_trans PollCycle.taken_length (Poller.begin_sent_fits p clock now q)
      have hcleared : (cycle.cleared p.table (s.reply cycle.buffers.tx)).Sound := PollCycle.sound_cleared ht
      obtain ⟨kept, hkept, hlive⟩ := Poller.live_insertAccepted hcleared hfit
      refine ⟨kept, hkept.trans (PollCycle.live_cleared_sublist ht), ?_⟩
      have hids : (cycle.cleared p.table (s.reply cycle.buffers.tx)).idAt = p.table.idAt :=
        funext fun _ => PollCycle.idAt_cleared
      rw [htable, hlive, hids, htaken, List.length_take, Nat.min_assoc, Nat.min_self]

/-- Three items are submitted to boards with two places: the last is refused. -/
theorem admits_overflow :
    let w : Work := ⟨.replicate Wire.midstateLength 7, .replicate Wire.dataLength 9, 1⟩
    let tx := Frame.submission 5 w ++ Frame.submission 6 w ++ Frame.submission 7 w
    let s := start { SimulatorSettings.standard with queueDepth := 2 }
    ∃ rx after, s.exchange tx tx.length = (.received rx, after) ∧
      after.pending = [5, 6] ∧ ReplyHeader.decode rx = ⟨true, 2⟩ := by
  intro w tx s
  obtain ⟨_, _, _, hnext, _⟩ := admits { SimulatorSettings.standard with queueDepth := 2 } []
  obtain ⟨rx, after, hexchange, hadmitted⟩ := hnext rfl tx
  have hread : Request.read (frames tx) = List.replicate 0 .flush ++ [5, 6, 7].map Request.submit := by
    decide +kernel
  obtain ⟨hpending, _, _⟩ := hadmitted 0 [5, 6, 7] hread
  have hreply : s.reply tx = rx := by
    have hreceived := (exchange_received (s := s) rfl tx).symm.trans hexchange
    exact Exchange.received.inj (congrArg Prod.fst hreceived)
  have hheader : ReplyHeader.decode rx = ⟨true, 2⟩ := by
    rw [← hreply]
    decide +kernel
  rw [hheader] at hpending
  exact ⟨rx, after, hexchange, hpending, hheader⟩

/-- Boards with 2 ^ 32 cores or more: two items are to finish, but the first stops the boards, and no reply tells of
it. -/
theorem not_admits_overcrowded :
    let w : Work := ⟨.replicate Wire.midstateLength 7, .replicate Wire.dataLength 9, 1⟩
    let tx := Frame.submission 5 w ++ Frame.submission 6 w
    let idle := List.replicate Wire.frameLength Wire.nop
    let s := (start { SimulatorSettings.standard with
      boards := [(0, 0xffffffff), (1, 2)], completionsPerPoll := 2 }).run [(tx, tx.length)]
    s.pending = [5, 6] ∧ Request.read (frames idle) = [] ∧
      (s.exchange idle idle.length).2.pending ≠ s.pending.drop 2 ∧
      ¬ ∃ rx, (s.exchange idle idle.length).1 = .received rx := by
  intro w tx idle s
  have hpending : s.pending = [5, 6] := by decide +kernel
  have hcrowded : s.misplaced = true := by decide +kernel
  have hend := exchange_misplaced hcrowded idle
  refine ⟨hpending, by decide +kernel, ?_, ?_⟩
  · rw [congrArg (fun e => e.2.pending) hend, hpending]
    decide
  · rw [congrArg Prod.fst hend]
    exact nofun

end Simulator

end Hashboard
