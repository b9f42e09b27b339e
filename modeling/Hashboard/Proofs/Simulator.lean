import Hashboard.Proofs.CoreMap
import Hashboard.Proofs.Reply
import Hashboard.Proofs.Requests

/-!
# What simulated boards make of a transaction

The boards grant the requests that they read one after the other: a flush empties them, and each submission
takes one of the free places while there are any. The header of their reply tells how many places there were.
-/

namespace Hashboard

namespace Request

def submitted? : Request → Option UInt16
  | flush => none
  | submit id => some id

/-- The ids that are submitted, in order. -/
def submitted (requests : List Request) : List UInt16 :=
  requests.filterMap submitted?

theorem submitted_ordered (flushes : Nat) (ids : List UInt16) :
    submitted (List.replicate flushes flush ++ ids.map submit) = ids := by
  have hnone : (List.replicate flushes flush).filterMap submitted? = [] := by
    refine List.filterMap_eq_nil_iff.mpr ?_
    intro r hr
    rw [List.eq_of_mem_replicate hr]
    rfl
  rw [submitted, List.filterMap_append, hnone, List.nil_append, List.filterMap_map]
  exact List.filterMap_some

end Request

namespace Admission

/-! ## Granting the requests -/

/-- Submissions are counted, and one is refused as soon as the places that were free are taken. -/
theorem counts_foldl_grant (a : Admission) (requests : List Request) :
    (requests.foldl grant a).offered = a.offered + (Request.submitted requests).length ∧
      (requests.foldl grant a).refused =
        (a.refused || decide (a.room < (Request.submitted requests).length)) := by
  induction requests generalizing a with
  | nil => simp [Request.submitted]
  | cons r rest ih =>
      obtain ⟨hoffered, hrefused⟩ := ih (a.grant r)
      rw [List.foldl_cons, hoffered, hrefused]
      cases r with
      | flush => exact ⟨rfl, rfl⟩
      | submit id =>
          have hlen : (Request.submitted (.submit id :: rest)).length = (Request.submitted rest).length + 1 := rfl
          rw [hlen]
          simp only [grant, offer]
          split
          · rename_i hfull
            simp [hfull]
            omega
          · rename_i hroom
            refine ⟨by simp only []; omega, ?_⟩
            congr 1
            simp only [decide_eq_decide]
            omega

theorem pending_foldl_offer (ids : List UInt16) (a : Admission) :
    (ids.foldl offer a).pending = a.pending ++ ids.take a.room := by
  induction ids generalizing a with
  | nil => simp
  | cons id rest ih =>
      rw [List.foldl_cons, ih (a.offer id)]
      unfold offer
      split
      · rename_i hfull
        simp only [hfull, List.take_zero, List.append_nil, pending]
      · rename_i hroom
        obtain ⟨room, hsucc⟩ := Nat.exists_eq_succ_of_ne_zero hroom
        simp only [hsucc, Nat.succ_sub_one, List.take_succ_cons, pending, List.reverse_cons,
          List.append_assoc, List.cons_append, List.nil_append]

/-- Submissions in a row fill the free places, one after the other. -/
theorem pending_ordered (held : List UInt16) (room flushes : Nat) (ids : List UInt16) :
    ((List.replicate flushes Request.flush ++ ids.map Request.submit).foldl grant
        ⟨held, [], room, 0, false⟩).pending =
      (if flushes = 0 then held else []) ++ ids.take room := by
  have hflushed : (List.replicate flushes Request.flush).foldl grant ⟨held, [], room, 0, false⟩ =
      ⟨if flushes = 0 then held else [], [], room, 0, false⟩ := by
    induction flushes generalizing held with
    | zero => rfl
    | succ n ih =>
        rw [List.replicate_succ, List.foldl_cons]
        refine (ih []).trans ?_
        simp
  rw [List.foldl_append, hflushed, List.foldl_map]
  refine (pending_foldl_offer ids _).trans ?_
  simp [pending]

end Admission

namespace Simulator

/-! ## One exchange -/

/-- The ids that are left on the boards when some have finished. -/
def kept (s : Simulator) : List UInt16 :=
  s.pending.drop s.settings.completionsPerPoll

/-- The free places when some items have finished. -/
def room (s : Simulator) : Nat :=
  s.settings.queueDepth.toNat - s.kept.length

/-- What the requests of a transaction come to, once some items have finished. -/
def intake (s : Simulator) (tx : List UInt8) : Admission :=
  (Request.read (frames tx)).foldl Admission.grant ⟨s.kept, [], s.room, 0, false⟩

/-- The reply of the boards. -/
def reply (s : Simulator) (tx : List UInt8) : List UInt8 :=
  Reply.write tx.length (s.afterCompletions.header (s.intake tx)) s.replies

variable {s : Simulator} {tx : List UInt8}

theorem exchange_received (h : s.misplaced = false) (tx : List UInt8) :
    s.exchange tx tx.length = (.received (s.reply tx), { s with pending := (s.intake tx).pending }) := by
  have hwalk : s.afterCompletions.admission tx = s.intake tx := by
    rw [admission, Admission.walk_eq]
    rfl
  rw [exchange, if_neg (by simp), h, if_neg (by simp), reply, ← hwalk]
  rfl

theorem offered_intake : (s.intake tx).offered = (Request.submitted (Request.read (frames tx))).length := by
  rw [intake, (Admission.counts_foldl_grant _ _).1]
  exact Nat.zero_add _

theorem refused_intake :
    (s.intake tx).refused = decide (s.room < (Request.submitted (Request.read (frames tx))).length) := by
  rw [intake, (Admission.counts_foldl_grant _ _).2]
  exact Bool.false_or _

/-- The header tells how many places there were, if anything was submitted. -/
theorem accepted_header (s : Simulator) (tx : List UInt8) :
    (s.afterCompletions.header (s.intake tx)).accepted.toNat =
      if (s.intake tx).offered = 0 then 0 else s.room := by
  have hroom : s.room < UInt16.size := Nat.lt_of_le_of_lt (Nat.sub_le _ _) s.settings.queueDepth.toNat_lt
  have haccepted : (s.afterCompletions.header (s.intake tx)).accepted =
      if (s.intake tx).offered = 0 then 0 else UInt16.ofNat (min s.room 65535) := rfl
  rw [haccepted]
  split
  · rfl
  · rw [UInt16.toNat_ofNat_of_lt' (by omega), Nat.min_eq_left (by simp only [UInt16.size] at hroom; omega)]

/-! ## The exchange of a cycle -/

theorem read_cycle (p : Poller) (clock : EpochClock) (now : Instant) (q : WorkQueue) :
    let cycle := (p.begin clock now q).1
    Request.read (frames cycle.buffers.tx) = List.replicate cycle.flushing.toNat .flush ++
      ((List.range cycle.sent.length).map p.table.idAt).map Request.submit := by
  intro cycle
  rw [Poller.read_begin, List.map_map]
  rfl

/-- The boards answer a cycle with the records of the finished items. They take items while there is room,
and tell how much there was, if any were sent. -/
theorem exchange_begin (s : Simulator) (h : s.settings.overcrowded = false) (p : Poller)
    (clock : EpochClock) (now : Instant) (q : WorkQueue) :
    let cycle := (p.begin clock now q).1
    ∃ header, s.exchange cycle.buffers.tx cycle.buffers.length =
        (.received (Reply.write Wire.transactionLength header s.replies),
          { s with pending := (if cycle.flushing then [] else s.kept) ++
              ((List.range cycle.sent.length).map p.table.idAt).take s.room }) ∧
      header.accepted.toNat = if cycle.sent = [] then 0 else s.room := by
  intro cycle
  have hplaced : s.misplaced = false := by simp [misplaced, h]
  have hread := read_cycle p clock now q
  have htx : cycle.buffers.tx.length = Wire.transactionLength := Poller.begin_tx_length p clock now q
  have hlength : cycle.buffers.length = cycle.buffers.tx.length :=
    (Poller.begin_length p clock now q).trans htx.symm
  have hpending : (s.intake cycle.buffers.tx).pending = (if cycle.flushing then [] else s.kept) ++
      ((List.range cycle.sent.length).map p.table.idAt).take s.room := by
    rw [intake, hread, Admission.pending_ordered]
    cases cycle.flushing <;> rfl
  have hoffered : (s.intake cycle.buffers.tx).offered = cycle.sent.length := by
    rw [offered_intake, hread, Request.submitted_ordered, List.length_map, List.length_range]
  refine ⟨s.afterCompletions.header (s.intake cycle.buffers.tx), ?_, ?_⟩
  · rw [hlength, exchange_received hplaced, hpending, reply, htx]
  · rw [accepted_header, hoffered]
    simp only [List.length_eq_zero_iff]

end Simulator

end Hashboard
