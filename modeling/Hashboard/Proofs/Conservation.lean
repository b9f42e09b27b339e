import Hashboard.Proofs.Findings
import Hashboard.Proofs.Station

/-!
# No work is lost

Every item that a queue has taken is still in it, was pruned or flushed, or was moved to the boards; every
item that was moved there is still on them, or left in one of four ways: it was completed, reported done by
a core that is not on the map, dropped by a flush, or pushed out under its own id. Items move in the order in
which they were taken.

What a cycle moves to the boards and what leaves them is told from their table before and after it. An entry
keeps the number of its insertion as long as it is there.
-/

namespace Hashboard

/-! ## What a cycle tells -/

namespace PollNotice

/-- The number of items that a notice reports as dropped by a flush. -/
def droppedCount : PollNotice → Nat
  | .dropped _ count => count
  | _ => 0

/-- The notice reports an item that was pushed out under its own id. -/
def reportsReissue : PollNotice → Bool
  | .reissued _ _ => true
  | _ => false

end PollNotice

namespace PollFinished

/-- The items moved to the boards: as many as were accepted, of those sent. -/
def moved (finished : PollFinished) : Nat :=
  match finished.result with
  | .ok outcome => min outcome.accepted.toNat outcome.sent
  | .error _ => 0

def completed (finished : PollFinished) : Nat :=
  match finished.result with
  | .ok outcome => outcome.dispatch.completed.toNat
  | .error _ => 0

def flushed (finished : PollFinished) : Bool :=
  match finished.result with
  | .ok outcome => outcome.flushed
  | .error _ => false

def dropped (finished : PollFinished) : Nat :=
  (finished.notices.map PollNotice.droppedCount).sum

/-- The items pushed out under their own id. -/
def displaced (finished : PollFinished) : Nat :=
  finished.notices.countP PollNotice.reportsReissue

end PollFinished

namespace InFlight

/-! ## Two tables compared -/

/-- The items of `after` that `before` does not have, in order. -/
def entered (before after : InFlight) : List Item :=
  (after.rows.filter fun row => row.1 ∉ before.rows.map Prod.fst).map (·.2.2)

/-- The entry is not in `after` any more, though none of the records tells that its search has ended. -/
def Vanished (after : InFlight) (rs : List ReplyRecord) (row : Nat × UInt16 × Item) : Prop :=
  row.1 ∉ after.rows.map Prod.fst ∧ ¬ ∃ r ∈ rs, r.ends row.2.1

instance (after : InFlight) (rs : List ReplyRecord) (row : Nat × UInt16 × Item) :
    Decidable (after.Vanished rs row) :=
  inferInstanceAs (Decidable (_ ∧ _))

/-- The entries of `before` that have vanished. -/
def vanished (before after : InFlight) (rs : List ReplyRecord) : Nat :=
  before.rows.countP fun row => after.Vanished rs row

/-- Those of them whose ids are in use again. -/
def replaced (before after : InFlight) (rs : List ReplyRecord) : Nat :=
  before.rows.countP fun row => after.Vanished rs row ∧ (after.get? row.2.1).isSome

/-- The items in flight that the records report done from cores that are not on the map. -/
def orphaned (cores : CoreMap) : InFlight → List ReplyRecord → Nat
  | _, [] => 0
  | t, r :: rs =>
    (r.kind == .done && (t.get? r.id).isSome && (cores.resolve r.address).isNone).toNat
      + orphaned cores (t.retire r) rs

variable {t : InFlight}

theorem Sound.size_eq_rows (h : t.Sound) : t.size = t.rows.length := by
  rw [h.size_eq, live_eq, List.length_map]

theorem Sound.size_retire (h : t.Sound) (cores : CoreMap) (r : ReplyRecord) :
    (t.retire r).size + (Finding.confirms cores .done ⟨r, t.get? r.id⟩).toNat
        + (r.kind == .done && (t.get? r.id).isSome && (cores.resolve r.address).isNone).toNat = t.size := by
  have hremove := h.size_remove r.id
  unfold InFlight.retire Finding.confirms Finding.resolved
  cases hk : r.kind with
  | nonce => simp [show (ReplyKind.nonce == ReplyKind.done) = false from rfl]
  | done =>
      cases hg : t.get? r.id <;> cases hc : cores.resolve r.address <;>
        simp only [hg, Option.isSome_none, Option.isSome_some, Bool.toNat_false, Bool.toNat_true] at hremove <;>
        simp <;> omega

/-- Records take from the table the items that they complete and those that they report from unknown
cores. -/
theorem Sound.size_retireAll (h : t.Sound) (cores : CoreMap) (rs : List ReplyRecord) :
    (t.retireAll rs).size + (t.findings rs).countP (Finding.confirms cores .done) + t.orphaned cores rs =
      t.size := by
  induction rs generalizing t with
  | nil => rfl
  | cons r rs ih =>
      have hone := h.size_retire cores r
      have hrest := ih (h.retire r)
      have hbool : ∀ b : Bool, (if b = true then 1 else 0) = b.toNat := by decide
      simp only [InFlight.retireAll, List.foldl_cons, findings, List.countP_cons, orphaned, hbool] at hrest ⊢
      omega

/-- Each item completed was on the boards, so their counter never goes round. -/
theorem Sound.toNat_completed (h : t.Sound) (device : String) (cores : CoreMap) (rx : List UInt8) :
    (dispatch device cores t rx).summary.completed.toNat =
      (t.findings (Reply.records rx)).countP (Finding.confirms cores .done) := by
  have hsize := h.size_retireAll cores (Reply.records rx)
  have hle := h.size_le
  have hwide : Wire.idSpace < UInt32.size := by decide
  rw [dispatch_summary_eq]
  exact UInt32.toNat_ofNat_of_lt' (by omega)

end InFlight

namespace Poller

variable {p : Poller} {cycle : PollCycle} {rx : List UInt8} {q : WorkQueue} {t : InFlight}

/-- Accepted items all enter the table, but each may push one out. -/
theorem size_insertAccepted (h : t.Sound) (items : List Item) :
    (insertAccepted t items).2.size + (insertAccepted t items).1.length = t.size + items.length := by
  induction items generalizing t with
  | nil => rfl
  | cons item rest ih =>
      have hone := h.size_insertNext item
      have hrest := ih (h.insertNext item)
      rw [insertAccepted_cons, insertAccepted_reissued, List.length_cons]
      split
      · rename_i hsome
        rw [hsome, Bool.toNat_true] at hone
        rw [List.length_cons]
        omega
      · rename_i hnone
        rw [Bool.not_eq_true] at hnone
        rw [hnone, Bool.toNat_false] at hone
        omega

theorem moved_eq : (p.finishReceived cycle rx (.sound q)).moved = (cycle.taken rx).length := by
  simp [PollFinished.moved, finishReceived, PollCycle.taken]

theorem completed_eq (h : p.table.Sound) :
    (p.finishReceived cycle rx (.sound q)).completed =
      (p.table.findings (Reply.records rx)).countP (Finding.confirms p.cores .done) :=
  h.toNat_completed p.device p.cores rx

/-- What a cycle with a reply has to say: other things, then what a flush dropped, the receipt, and the ids
that were still in flight. -/
private theorem notices_eq (p : Poller) (cycle : PollCycle) (rx : List UInt8) (q : WorkQueue) :
    ∃ others : List PollNotice, (∀ n ∈ others, n.droppedCount = 0 ∧ n.reportsReissue = false) ∧
      (p.finishReceived cycle rx (.sound q)).notices =
        others ++ (if cycle.flushing then
            [.dropped p.device (p.table.retireAll (Reply.records rx)).size] else []) ++
          [.receipt p.device (ReplyHeader.decode rx).accepted cycle.sent.length q.capacity
            (cycle.cleared p.table rx).size] ++
          (insertAccepted (cycle.cleared p.table rx) (cycle.taken rx)).1.map (.reissued p.device) := by
  refine ⟨(if (ReplyHeader.decode rx).overflow then [.overflow p.device] else []) ++
    (dispatch p.device p.cores p.table rx).notices.toList.map .dispatch, ?_, ?_⟩
  · intro n hn
    rw [List.mem_append, List.mem_map] at hn
    rcases hn with hn | ⟨notice, _, rfl⟩
    · split at hn
      · rw [List.mem_singleton.mp hn]
        exact ⟨rfl, rfl⟩
      · cases hn
    · exact ⟨rfl, rfl⟩
  · simp only [finishReceived, settle_inserted.1, InFlight.dispatch_table]
    rfl

theorem dropped_eq :
    (p.finishReceived cycle rx (.sound q)).dropped =
      if cycle.flushing then (p.table.retireAll (Reply.records rx)).size else 0 := by
  obtain ⟨others, hothers, hall⟩ := notices_eq p cycle rx q
  have hnone : (others.map PollNotice.droppedCount).sum = 0 := by
    rw [List.map_congr_left fun n hn => (hothers n hn).1]
    simp
  have hids : ∀ ids : List UInt16,
      ((ids.map (PollNotice.reissued p.device)).map PollNotice.droppedCount).sum = 0 := by
    intro ids
    simp [Function.comp_def, PollNotice.droppedCount]
  rw [PollFinished.dropped, hall]
  simp only [List.map_append, List.sum_append, hnone, hids]
  cases cycle.flushing <;> simp [PollNotice.droppedCount]

theorem displaced_eq :
    (p.finishReceived cycle rx (.sound q)).displaced =
      (insertAccepted (cycle.cleared p.table rx) (cycle.taken rx)).1.length := by
  obtain ⟨others, hothers, hall⟩ := notices_eq p cycle rx q
  have hnone : others.countP PollNotice.reportsReissue = 0 := by
    rw [List.countP_eq_zero]
    intro n hn
    simp [(hothers n hn).2]
  have hids : ∀ ids : List UInt16,
      (ids.map (PollNotice.reissued p.device)).countP PollNotice.reportsReissue = ids.length := by
    intro ids
    simp [List.countP_map, Function.comp_def, PollNotice.reportsReissue]
  rw [PollFinished.displaced, hall]
  simp only [List.countP_append, hnone, hids]
  cases cycle.flushing <;> simp [PollNotice.reportsReissue]

/-- A reply takes items from the table and brings others, and tells how many of each. -/
theorem size_tableAfter (h : p.table.Sound) (cycle : PollCycle) (rx : List UInt8) (q : WorkQueue) :
    let finished := p.finishReceived cycle rx (.sound q)
    (p.tableAfter cycle rx).size + finished.completed + p.table.orphaned p.cores (Reply.records rx)
        + finished.dropped + finished.displaced =
      p.table.size + finished.moved := by
  have hrecords := h.size_retireAll p.cores (Reply.records rx)
  have hinsert := size_insertAccepted (show (cycle.cleared p.table rx).Sound from PollCycle.sound_cleared h)
    (cycle.taken rx)
  have hflush : (cycle.cleared p.table rx).size +
      (if cycle.flushing then (p.table.retireAll (Reply.records rx)).size else 0) =
        (p.table.retireAll (Reply.records rx)).size := by
    unfold PollCycle.cleared
    cases cycle.flushing <;> simp
  simp only [completed_eq h, dropped_eq, displaced_eq, moved_eq, tableAfter] at hrecords ⊢
  omega

/-! ## What the tables tell of a cycle -/

theorem rows_cleared (h : p.table.Sound) :
    (cycle.cleared p.table rx).rows =
      if cycle.flushing then []
      else p.table.rows.filter fun row => ¬ ∃ r ∈ Reply.records rx, r.ends row.2.1 := by
  unfold PollCycle.cleared
  cases cycle.flushing with
  | true => exact InFlight.rows_clear
  | false => exact h.rows_retireAll _

theorem nextSeq_cleared : (cycle.cleared p.table rx).nextSeq = p.table.nextSeq := by
  unfold PollCycle.cleared
  simp only []
  split <;> simp

theorem rows_tableAfter (h : p.table.Sound) (hlen : (cycle.taken rx).length ≤ Wire.idSpace) :
    (p.tableAfter cycle rx).rows =
      ((cycle.cleared p.table rx).rows.filter fun row =>
          ∀ k, k < (cycle.taken rx).length → p.table.idAt k ≠ row.2.1) ++
        entering (cycle.cleared p.table rx) (cycle.taken rx) := by
  rw [tableAfter, rows_insertAccepted (PollCycle.sound_cleared h) hlen]
  simp only [PollCycle.idAt_cleared]

theorem seq_of_mem_entering {row} (h : row ∈ entering (cycle.cleared p.table rx) (cycle.taken rx)) :
    p.table.nextSeq ≤ row.1 := by
  obtain ⟨k, _, _, rfl⟩ := mem_entering.mp h
  rw [nextSeq_cleared]
  exact Nat.le_add_right _ _

theorem mem_rows_of_cleared (h : p.table.Sound) {row} (hrow : row ∈ (cycle.cleared p.table rx).rows) :
    row ∈ p.table.rows := by
  rw [rows_cleared h] at hrow
  split at hrow
  · cases hrow
  · exact (List.mem_filter.mp hrow).1

/-- The entries that the table has and did not have are the items accepted, in order. -/
theorem entered_tableAfter (h : p.table.Sound) (hlen : (cycle.taken rx).length ≤ Wire.idSpace) :
    p.table.entered (p.tableAfter cycle rx) = cycle.taken rx := by
  rw [InFlight.entered, rows_tableAfter h hlen, List.filter_append]
  have hold : ∀ rows : List (Nat × UInt16 × Item), rows ⊆ (cycle.cleared p.table rx).rows →
      rows.filter (fun row => row.1 ∉ p.table.rows.map Prod.fst) = [] := by
    intro rows hrows
    refine List.filter_eq_nil_iff.mpr fun row hrow => ?_
    have hmem := List.mem_map_of_mem (f := Prod.fst) (mem_rows_of_cleared h (hrows hrow))
    simpa using hmem
  have hnew : (entering (cycle.cleared p.table rx) (cycle.taken rx)).filter
      (fun row => row.1 ∉ p.table.rows.map Prod.fst) =
        entering (cycle.cleared p.table rx) (cycle.taken rx) := by
    refine List.filter_eq_self.mpr fun row hrow => decide_eq_true ?_
    intro hmem
    obtain ⟨row', hrow', he⟩ := List.mem_map.mp hmem
    exact Nat.not_lt.mpr (seq_of_mem_entering hrow) (he ▸ h.lt_nextSeq hrow')
  rw [hold _ List.filter_sublist.subset, hnew, List.nil_append, items_entering]

/-- What makes an entry leave the table. -/
theorem gone_iff (h : p.table.Sound) (hlen : (cycle.taken rx).length ≤ Wire.idSpace) {row}
    (hrow : row ∈ p.table.rows) :
    row.1 ∉ (p.tableAfter cycle rx).rows.map Prod.fst ↔
      cycle.flushing = true ∨ (∃ r ∈ Reply.records rx, r.ends row.2.1) ∨
        ∃ k, k < (cycle.taken rx).length ∧ p.table.idAt k = row.2.1 := by
  have hstays : row.1 ∈ (p.tableAfter cycle rx).rows.map Prod.fst ↔
      row ∈ (cycle.cleared p.table rx).rows ∧ ∀ k, k < (cycle.taken rx).length → p.table.idAt k ≠ row.2.1 := by
    rw [rows_tableAfter h hlen, List.map_append, List.mem_append]
    constructor
    · rintro (hmem | hmem) <;> obtain ⟨row', hrow', he⟩ := List.mem_map.mp hmem
      · obtain ⟨hcleared, hk⟩ := List.mem_filter.mp hrow'
        obtain rfl := InFlight.rows_inj (mem_rows_of_cleared h hcleared) hrow he
        exact ⟨hcleared, of_decide_eq_true hk⟩
      · exact absurd (he ▸ h.lt_nextSeq hrow) (Nat.not_lt.mpr (seq_of_mem_entering hrow'))
    · rintro ⟨hcleared, hk⟩
      exact Or.inl (List.mem_map_of_mem (List.mem_filter.mpr ⟨hcleared, decide_eq_true hk⟩))
  rw [hstays, rows_cleared h]
  cases cycle.flushing with
  | true => simp
  | false =>
      simp only [Bool.false_eq_true, if_false, List.mem_filter, hrow, true_and, decide_eq_true_eq, false_or]
      rw [not_and_or, not_not]
      simp only [not_forall, not_not, exists_prop]

theorem dropped_eq_vanished (h : p.table.Sound) (hlen : (cycle.taken rx).length ≤ Wire.idSpace) :
    (p.finishReceived cycle rx (.sound q)).dropped =
      if cycle.flushing then p.table.vanished (p.tableAfter cycle rx) (Reply.records rx) else 0 := by
  rw [dropped_eq]
  cases hf : cycle.flushing with
  | false => rfl
  | true =>
      rw [if_pos rfl, if_pos rfl, (h.retireAll _).size_eq_rows, h.rows_retireAll,
        ← List.countP_eq_length_filter]
      refine List.countP_congr fun row hrow => ?_
      simp only [decide_eq_true_eq, InFlight.Vanished, gone_iff h hlen hrow, hf, true_or, true_and]

theorem displaced_eq_replaced (h : p.table.Sound) (hlen : (cycle.taken rx).length ≤ Wire.idSpace) :
    (p.finishReceived cycle rx (.sound q)).displaced =
      if cycle.flushing then 0 else p.table.replaced (p.tableAfter cycle rx) (Reply.records rx) := by
  have hc : (cycle.cleared p.table rx).Sound := PollCycle.sound_cleared h
  have hinsert := size_insertAccepted hc (cycle.taken rx)
  have hrows := congrArg List.length (rows_tableAfter h hlen)
  rw [← (sound_tableAfter h).size_eq_rows, List.length_append, length_entering] at hrows
  -- the entries whose ids are given out are those that the insertions push out
  have hpushed : ((cycle.cleared p.table rx).rows.countP fun row =>
      ¬ ∀ k, k < (cycle.taken rx).length → p.table.idAt k ≠ row.2.1) =
        (insertAccepted (cycle.cleared p.table rx) (cycle.taken rx)).1.length := by
    have hsplit := List.length_eq_countP_add_countP
      (fun row => decide (∀ k, k < (cycle.taken rx).length → p.table.idAt k ≠ row.2.1))
      (l := (cycle.cleared p.table rx).rows)
    rw [← hc.size_eq_rows, List.countP_eq_length_filter] at hsplit
    simp only [decide_eq_true_eq] at hsplit
    rw [tableAfter] at hrows
    omega
  rw [displaced_eq, ← hpushed, rows_cleared h]
  cases hf : cycle.flushing with
  | true => rfl
  | false =>
      rw [if_neg Bool.false_ne_true, if_neg Bool.false_ne_true, List.countP_filter]
      refine List.countP_congr fun row hrow => ?_
      simp only [Bool.and_eq_true, decide_eq_true_eq, InFlight.Vanished, gone_iff h hlen hrow, hf,
        Bool.false_eq_true, false_or]
      constructor
      · rintro ⟨hpush, hopen⟩
        simp only [not_forall, not_not] at hpush
        obtain ⟨k, hk, hid⟩ := hpush
        refine ⟨⟨Or.inr ⟨k, hk, hid⟩, hopen⟩, Option.isSome_iff_exists.mpr ⟨(cycle.taken rx)[k], ?_⟩⟩
        exact (get?_insertAccepted hc hlen).mpr
          (Or.inl ⟨k, List.getElem?_eq_getElem hk, PollCycle.idAt_cleared.trans hid⟩)
      · rintro ⟨⟨hgone | ⟨k, hk, hid⟩, hopen⟩, _⟩
        · exact absurd hgone hopen
        · exact ⟨fun hall => hall k hk hid, hopen⟩

end Poller

namespace Station

/-- What became of the items. -/
structure Ledger where
  /-- The items that the queue has taken, in order. -/
  enqueued : List Item
  /-- The items that have entered the table, in order. -/
  shipped : List Item
  /-- As many as were accepted, of those sent. -/
  moved : Nat
  completed : Nat
  /-- Reported done by a core that is not on the map. -/
  orphaned : Nat
  /-- Gone from the table in a cycle with a flush. -/
  dropped : Nat
  /-- Gone from the table while their ids were given out again. -/
  displaced : Nat

def Ledger.blank : Ledger := ⟨[], [], 0, 0, 0, 0, 0⟩

/-- The books after a cycle that a reply ended: `before` and `after` are the tables. -/
def Ledger.bookCycle (l : Ledger) (cores : CoreMap) (before after : InFlight) (rs : List ReplyRecord)
    (finished : PollFinished) : Ledger where
  enqueued := l.enqueued
  shipped := l.shipped ++ before.entered after
  moved := l.moved + finished.moved
  completed := l.completed + finished.completed
  orphaned := l.orphaned + before.orphaned cores rs
  dropped := l.dropped + if finished.flushed then before.vanished after rs else 0
  displaced := l.displaced + if finished.flushed then 0 else before.replaced after rs

variable {β : Type}

/-- The books of a station balance. -/
structure Balanced (s : Station β) (l : Ledger) : Prop where
  table : s.poller.table.Sound
  queue : s.queue.Accounts l.moved
  boards : l.moved = s.poller.table.size + l.completed + l.orphaned + l.dropped + l.displaced
  order : (l.shipped ++ s.queue.items.toList).Sublist l.enqueued
  counted : l.shipped.length = l.moved
  live : (s.poller.table.live.map Prod.snd).Sublist l.shipped

variable {s : Station β} {l : Ledger} {now : Instant}

theorem balanced_start (device : String) (cores : CoreMap) (interval : Nat) (epoch : UInt64) (bus : β) :
    (start device cores interval epoch bus).Balanced .blank where
  table := InFlight.sound_empty
  queue := rfl
  boards := by
    show 0 = InFlight.empty.size + 0 + 0 + 0 + 0
    simp [InFlight.sound_empty.size_eq]
  order := by simp [start, Ledger.blank, WorkQueue.empty]
  counted := rfl
  live := by simp [start, Poller.start]

/-- What leaves the queue does not disturb the order. -/
theorem Balanced.order_of_sublist (h : s.Balanced l) {items : List Item}
    (hi : items.Sublist s.queue.items.toList) : (l.shipped ++ items).Sublist l.enqueued :=
  (List.Sublist.append_left hi l.shipped).trans h.order

/-! ## What a cycle does to the books -/

theorem accounts_rest {moved : Nat} (h : s.queue.Accounts moved) (now : Instant) :
    (s.rest now).Accounts moved :=
  h.prune

theorem accounts_received {moved : Nat} (h : s.queue.Accounts moved) (now : Instant) (rx : List UInt8) :
    (s.poller.queueAfter (s.cycle now) rx (s.rest now)).Accounts
      (moved + ((s.cycle now).taken rx).length) := by
  have hrest := accounts_rest h now
  have hsplit := congrArg List.length (s.rest_split now rx)
  rw [List.length_append, ← WorkQueue.size_eq, ← WorkQueue.size_eq] at hsplit
  unfold WorkQueue.Accounts at hrest ⊢
  rw [Poller.counts_queueAfter]
  omega

theorem length_taken_le (s : Station β) (now : Instant) (rx : List UInt8) :
    ((s.cycle now).taken rx).length ≤ Wire.idSpace :=
  Nat.le_trans PollCycle.taken_length (Poller.begin_sent_fits s.poller s.clock now s.queue)

/-- What a cycle without a reply does to the queue. -/
theorem Balanced.rest (h : s.Balanced l) (now : Instant) {t : Station β} (hp : t.poller = s.poller)
    (hi : t.queue.items = (s.rest now).items) (hc : t.queue.counts = (s.rest now).counts) :
    t.Balanced l where
  table := hp ▸ h.table
  queue := by
    have hrest := accounts_rest h.queue now
    unfold WorkQueue.Accounts WorkQueue.size at hrest ⊢
    rw [hi, hc]
    exact hrest
  boards := hp ▸ h.boards
  order := by
    rw [hi, items_rest]
    exact h.order_of_sublist WorkQueue.freshOf_sublist
  counted := h.counted
  live := hp ▸ h.live

/-! ## Runs -/

section Runs

variable [Bus β]

def Ledger.book (l : Ledger) (s : Station β) : Act → Ledger
  | .append item =>
    if (s.queue.append s.clock item).1 then { l with enqueued := l.enqueued ++ [item] } else l
  | .poll now =>
    match s.answer now, s.finished? now with
    | .received rx, some finished =>
      l.bookCycle s.poller.cores s.poller.table (s.poll now).poller.table (Reply.records rx) finished
    | _, _ => l
  | .prune | .flush _ | .advance _ _ => l

def audit (s : Station β) (l : Ledger) : List Act → Station β × Ledger
  | [] => (s, l)
  | act :: acts => audit (s.act act) (l.book s act) acts

theorem Balanced.append (h : s.Balanced l) (item : Item) :
    (s.act (.append item)).Balanced (l.book s (.append item)) := by
  have horder : (l.shipped ++ (s.queue.append s.clock item).2.items.toList).Sublist
      (l.enqueued ++ if (s.queue.append s.clock item).1 then [item] else []) := by
    refine (List.Sublist.append_left WorkQueue.append_sublist l.shipped).trans ?_
    rw [← List.append_assoc]
    exact List.Sublist.append_right h.order _
  simp only [Ledger.book]
  split
  · rename_i hyes
    exact ⟨h.table, h.queue.append, h.boards, by simpa [hyes, act] using horder, h.counted, h.live⟩
  · rename_i hno
    exact ⟨h.table, h.queue.append, h.boards, by simpa [hno, act] using horder, h.counted, h.live⟩

theorem Balanced.prune (h : s.Balanced l) : (s.act .prune).Balanced (l.book s .prune) where
  table := h.table
  queue := h.queue.prune
  boards := h.boards
  order := by
    refine h.order_of_sublist ?_
    simp only [act, WorkQueue.items_prune]
    exact WorkQueue.freshOf_sublist
  counted := h.counted
  live := h.live

theorem Balanced.flush (h : s.Balanced l) : (s.act (.flush now)).Balanced (l.book s (.flush now)) where
  table := h.table
  queue := h.queue.flush
  boards := h.boards
  order := by
    refine h.order_of_sublist ?_
    simp [act]
  counted := h.counted
  live := h.live

theorem Balanced.reply (h : s.Balanced l) {rx : List UInt8} (hrx : s.answer now = .received rx) :
    (s.poll now).Balanced (l.bookCycle s.poller.cores s.poller.table (s.poll now).poller.table
      (Reply.records rx) (s.poller.finishReceived (s.cycle now) rx (.sound (s.rest now)))) := by
  have hlen := s.length_taken_le now rx
  have hsound : (s.poller.tableAfter (s.cycle now) rx).Sound := Poller.sound_tableAfter h.table
  have hentered : s.poller.table.entered (s.poller.tableAfter (s.cycle now) rx) = (s.cycle now).taken rx :=
    Poller.entered_tableAfter h.table hlen
  have hmoved : (s.poller.finishReceived (s.cycle now) rx (.sound (s.rest now))).moved =
      ((s.cycle now).taken rx).length := Poller.moved_eq
  rw [poll_received hrx]
  refine ⟨hsound, ?_, ?_, ?_, ?_, ?_⟩
  · simp only [Ledger.bookCycle, hmoved]
    exact accounts_received h.queue now rx
  · have hsize := Poller.size_tableAfter h.table (s.cycle now) rx (s.rest now)
    have hdropped := Poller.dropped_eq_vanished (q := s.rest now) h.table hlen
    have hdisplaced := Poller.displaced_eq_replaced (q := s.rest now) h.table hlen
    have hflushed : (s.poller.finishReceived (s.cycle now) rx (.sound (s.rest now))).flushed =
        (s.cycle now).flushing := rfl
    have hboards := h.boards
    simp only [Ledger.bookCycle, hflushed, ← hdropped, ← hdisplaced] at hsize ⊢
    omega
  · simp only [Ledger.bookCycle, hentered]
    rw [List.append_assoc, ← s.rest_split now rx, items_rest]
    exact h.order_of_sublist WorkQueue.freshOf_sublist
  · simp only [Ledger.bookCycle, hentered, hmoved, List.length_append, h.counted]
  · simp only [Ledger.bookCycle, hentered]
    refine (Poller.live_insertAccepted_sublist (PollCycle.sound_cleared h.table) _).trans ?_
    refine List.Sublist.append_right (List.Sublist.trans ?_ h.live) _
    exact (PollCycle.live_cleared_sublist h.table).map Prod.snd

theorem Balanced.poll (h : s.Balanced l) : (s.act (.poll now)).Balanced (l.book s (.poll now)) := by
  simp only [act, Ledger.book]
  cases ha : s.answer now with
  | received rx =>
      rw [finished?_received ha]
      exact h.reply ha
  | failed error =>
      rw [poll_failed ha]
      refine h.rest now rfl ?_ ?_ <;> simp only [] <;> split <;> rfl
  | crashed =>
      rw [poll_crashed ha]
      exact h.rest now rfl rfl rfl

theorem Balanced.act (h : s.Balanced l) (act : Act) : (s.act act).Balanced (l.book s act) := by
  cases act with
  | append item => exact h.append item
  | prune => exact h.prune
  | flush now => exact h.flush
  | advance epoch keepInFlight => exact ⟨h.table, h.queue, h.boards, h.order, h.counted, h.live⟩
  | poll now => exact h.poll

theorem Balanced.audit (h : s.Balanced l) (acts : List Act) :
    (s.audit l acts).1.Balanced (s.audit l acts).2 := by
  induction acts generalizing s l with
  | nil => exact h
  | cons act acts ih => exact ih (h.act act)

/-- Conservation of work, after any acts on any bus. -/
theorem conserved (device : String) (cores : CoreMap) (interval : Nat) (epoch : UInt64) (bus : β)
    (acts : List Act) :
    let (s, l) := (start device cores interval epoch bus).audit .blank acts
    s.queue.counts.enqueued =
        s.queue.size + s.queue.counts.pruned + s.queue.counts.flushed + l.moved ∧
      l.moved = s.poller.table.size + l.completed + l.orphaned + l.dropped + l.displaced ∧
      (l.shipped ++ s.queue.items.toList).Sublist l.enqueued ∧
      l.shipped.length = l.moved ∧
      (s.poller.table.live.map Prod.snd).Sublist l.shipped := by
  have h := (balanced_start device cores interval epoch bus).audit acts
  exact ⟨h.queue, h.boards, h.order, h.counted, h.live⟩

end Runs

end Station

end Hashboard
