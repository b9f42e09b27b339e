import Mathlib.Data.List.Perm.Basic
import Mathlib.Order.Lattice
import Hashboard.Proofs.WorkQueue

/-!
# How a queue pushes back

A queue never holds more items than its capacity, and its full flag is set whenever it is at capacity. So it
refuses an item only if it is at capacity with fresh items alone, and a refusal leaves no trace but its count
(`backpressure`).
-/

namespace Hashboard.WorkQueue

variable {q : WorkQueue} {clock : EpochClock} {item : Item} {now : Instant}

/-! ## The full flag -/

theorem measured_push : (q.push clock item).Measured := by
  rw [push_eq]; split <;> rfl

theorem measured_append : (q.append clock item).2.Measured := by
  rcases Nat.lt_or_ge (q.relieved clock).size q.capacity with h | h
  · rw [append_of_room h]
    exact measured_push
  · rw [append_of_full h]
    rfl

theorem measured_flush (h : 0 < q.capacity) : (q.flush clock now).2.Measured := by
  have hfull : (q.flush clock now).2.full = false := by
    unfold flush; simp only []; split <;> rfl
  rw [Measured, hfull, capacity_flush, size, items_flush]
  exact (decide_eq_false (Nat.not_le.mpr h)).symm

/-! ## The bound -/

/-- The queue is within its capacity, and the full flag is set when it is at capacity. -/
structure Limited (q : WorkQueue) : Prop where
  capacity_pos : 0 < q.capacity
  size_le : q.size ≤ q.capacity
  full : q.capacity ≤ q.size → q.full = true

theorem Measured.limited (h : q.Measured) (hpos : 0 < q.capacity) (hle : q.size ≤ q.capacity) :
    q.Limited :=
  ⟨hpos, hle, fun hsize => h.trans (decide_eq_true hsize)⟩

theorem limited_empty : empty.Limited :=
  ⟨by decide, by decide, by decide⟩

theorem Limited.append (h : q.Limited) : (q.append clock item).2.Limited := by
  refine measured_append.limited ?_ ?_
  · rw [capacity_append]
    exact h.capacity_pos
  · rw [capacity_append]
    rcases Nat.lt_or_ge (q.relieved clock).size q.capacity with hroom | hfull
    · rw [append_of_room hroom]
      exact Nat.le_trans size_push_le hroom
    · rw [append_of_full hfull]
      exact Nat.le_trans (size_prune_le q clock) h.size_le

theorem Limited.observeAccepted (h : q.Limited) (accepted : Nat) : (q.observeAccepted accepted).2.Limited := by
  have hle := (le_capacity_observeAccepted (q := q) (n := accepted)).1
  have hsize : (q.observeAccepted accepted).2.size = q.size := by rw [size, items_observeAccepted]; rfl
  have hfull : (q.observeAccepted accepted).2.full = q.full := by
    unfold WorkQueue.observeAccepted; split <;> rfl
  refine ⟨Nat.lt_of_lt_of_le h.capacity_pos hle, ?_, ?_⟩
  · rw [hsize]
    exact Nat.le_trans h.size_le hle
  · rw [hsize, hfull]
    exact fun hcap => h.full (Nat.le_trans hle hcap)

theorem foldl_erase_sublist (accepted items : List Item) :
    (accepted.foldl List.erase items).Sublist items := by
  induction accepted generalizing items with
  | nil => exact List.Sublist.refl _
  | cons a accepted ih => exact (ih (items.erase a)).trans List.erase_sublist

theorem Limited.removeAccepted (h : q.Limited) (accepted : List Item) : (q.removeAccepted accepted).Limited := by
  refine Measured.limited rfl h.capacity_pos (Nat.le_trans ?_ h.size_le)
  rw [size_eq, size_eq, items_removeAccepted]
  exact (foldl_erase_sublist accepted _).length_le

/-- The operation looks again whether the queue is full. -/
def Op.measures : Op → Bool
  | .append .. | .prune _ | .flush .. | .removeAccepted _ => true
  | _ => false

theorem Limited.measured_apply (h : q.Limited) {op : Op} (hop : op.measures) : (q.apply op).Measured := by
  cases op with
  | append clock item => exact measured_append
  | flush clock now => exact measured_flush h.capacity_pos
  | prune | removeAccepted => rfl
  | _ => cases hop

theorem Limited.apply (h : q.Limited) (op : Op) : (q.apply op).Limited := by
  cases op with
  | append clock item => exact h.append
  | prune clock =>
      exact Measured.limited rfl h.capacity_pos (Nat.le_trans (size_prune_le q clock) h.size_le)
  | flush clock now =>
      have hpos : 0 < (q.flush clock now).2.capacity := by
        rw [capacity_flush]
        exact h.capacity_pos
      have hsize : (q.flush clock now).2.size = 0 := by rw [size, items_flush]; rfl
      exact (measured_flush h.capacity_pos).limited hpos (hsize ▸ Nat.zero_le _)
  | observeAccepted accepted => exact h.observeAccepted accepted
  | removeAccepted accepted => exact h.removeAccepted accepted
  | armFlush | disarmFlush | setNewestInFlight | requestPoll | settlePollRequest =>
      exact ⟨h.capacity_pos, h.size_le, h.full⟩

theorem Limited.applyAll (h : q.Limited) (ops : List Op) : (q.applyAll ops).Limited := by
  induction ops generalizing q with
  | nil => exact h
  | cons op ops ih => exact ih (h.apply op)

/-! ## The capacity -/

/-- The capacity is the largest accept count told so far, but at least one and at most half of the id space. -/
theorem capacity_reached (ops : List Op) :
    (empty.applyAll ops).capacity = min maxCapacity (max 1 (largestAccepted ops)) := by
  have hbounds : 1 ≤ maxCapacity := by decide
  rw [capacity_applyAll]
  show max 1 (min (largestAccepted ops) maxCapacity) = _
  omega

theorem largestAccepted_perm {ops others : List Op}
    (h : (others.filterMap Op.accepted?).Perm (ops.filterMap Op.accepted?)) :
    largestAccepted others = largestAccepted ops :=
  h.foldr_eq 0

/-! ## What appending comes to -/

theorem freshOf_freshOf (items : List Item) : freshOf clock (freshOf clock items) = freshOf clock items := by
  simp [freshOf, List.filter_filter]

theorem freshOf_concat (items : List Item) :
    freshOf clock (items ++ [item]) =
      freshOf clock items ++ if clock.isStale .relaxed item then [] else [item] := by
  cases h : clock.isStale .relaxed item <;> simp [freshOf, List.filter_append, h]

/-- An item is refused if and only if the queue is at capacity with fresh items alone. -/
theorem Limited.append_eq_false_iff (h : q.Limited) :
    (q.append clock item).1 = false ↔
      q.size = q.capacity ∧ ∀ other ∈ q.items.toList, clock.isStale .relaxed other = false := by
  rw [append_fst, decide_eq_false_iff_not, Nat.not_lt, ← freshOf_eq_self_iff]
  constructor
  · intro hfull
    have hsize : q.size = q.capacity := Nat.le_antisymm h.size_le (Nat.le_trans hfull size_relieved_le)
    refine ⟨hsize, freshOf_sublist.eq_of_length_le ?_⟩
    rw [size_eq, items_relieved, if_pos (Nat.le_of_eq hsize.symm)] at hfull
    rw [← size_eq, hsize]
    exact hfull
  · rintro ⟨hsize, hfresh⟩
    rw [size_eq, items_relieved, if_pos (Nat.le_of_eq hsize.symm), hfresh, ← size_eq, hsize]

theorem Limited.append_of_refused (h : q.Limited) (hr : (q.append clock item).1 = false) :
    (q.append clock item).2 = q.refused := by
  obtain ⟨hsize, hfresh⟩ := h.append_eq_false_iff.mp hr
  have hcap : q.capacity ≤ q.size := Nat.le_of_eq hsize.symm
  have hm : q.Measured := (h.full hcap).trans (decide_eq_true hcap).symm
  have hfull : q.capacity ≤ (q.relieved clock).size := by
    rw [relieved, if_pos hcap, prune_of_fresh hm hfresh]
    exact hcap
  rw [append_of_full hfull, prune_of_fresh hm hfresh]

/-- An item that is taken comes last; stale items go if the queue was at capacity, or is with the item. -/
theorem Limited.items_append (h : q.Limited) (ht : (q.append clock item).1 = true) :
    let waiting := if q.size = q.capacity then freshOf clock q.items.toList else q.items.toList
    let filled := q.capacity ≤ waiting.length + 1
    (q.append clock item).2.items.toList =
      (if q.size = q.capacity ∨ filled then freshOf clock q.items.toList else q.items.toList) ++
        if filled ∧ clock.isStale .relaxed item then [] else [item] := by
  intro waiting filled
  have hroom : (q.relieved clock).size < q.capacity := by simpa [append_fst] using ht
  have hcap : q.capacity ≤ q.size ↔ q.size = q.capacity :=
    ⟨Nat.le_antisymm h.size_le, fun hsize => Nat.le_of_eq hsize.symm⟩
  have hwaiting : (q.relieved clock).items.toList = waiting := by
    rw [items_relieved]
    simp only [hcap, waiting]
  have hfresh : freshOf clock waiting = freshOf clock q.items.toList := by
    simp only [waiting]
    split
    · exact freshOf_freshOf _
    · rfl
  rw [append_of_room hroom, items_push, capacity_relieved, size_eq, hwaiting]
  by_cases hfilled : filled
  · rw [if_pos hfilled, freshOf_concat, hfresh]
    simp [hfilled]
  · rw [if_neg hfilled]
    simp [hfilled, waiting]

/-- What holds of every queue that any operations under any clocks have made of an empty one. -/
theorem backpressure (ops : List Op) :
    let q := empty.applyAll ops
    q.size ≤ q.capacity ∧
    q.capacity = min 16384 (max 1 (largestAccepted ops)) ∧
    (∀ more, q.capacity ≤ (q.applyAll more).capacity) ∧
    (∀ others, (others.filterMap Op.accepted?).Perm (ops.filterMap Op.accepted?) →
      (empty.applyAll others).capacity = q.capacity) ∧
    (q.capacity ≤ q.size → q.full = true) ∧
    (∀ op : Op, op.measures → (q.apply op).full = decide ((q.apply op).capacity ≤ (q.apply op).size)) ∧
    ∀ (clock : EpochClock) (item : Item),
      let old := q.items.toList
      let fresh := old.filter fun other => !clock.isStale .relaxed other
      let filled := q.capacity ≤ (if q.size = q.capacity then fresh else old).length + 1
      ((q.append clock item).1 = false ↔
        q.size = q.capacity ∧ ∀ other ∈ old, clock.isStale .relaxed other = false) ∧
      ((q.append clock item).1 = false →
        (q.append clock item).2 =
          { q with counts := { q.counts with rejected := q.counts.rejected + 1 } }) ∧
      ((q.append clock item).1 = true →
        (q.append clock item).2.items.toList =
          (if q.size = q.capacity ∨ filled then fresh else old) ++
            if filled ∧ clock.isStale .relaxed item then [] else [item]) := by
  intro q
  have h : q.Limited := limited_empty.applyAll ops
  refine ⟨h.size_le, capacity_reached ops, ?_, ?_, h.full, ?_, ?_⟩
  · intro more
    rw [capacity_applyAll (q := q)]
    exact Nat.le_max_left _ _
  · intro others hperm
    rw [capacity_reached, largestAccepted_perm hperm]
    exact (capacity_reached ops).symm
  · intro op hop
    exact h.measured_apply hop
  · intro clock item
    exact ⟨h.append_eq_false_iff, h.append_of_refused, h.items_append⟩

/-- A fresh item in the only place keeps another one out, until a new epoch has made it stale. -/
theorem backpressure_refusal :
    let item (handle : Nat) (epoch : UInt64) : Item :=
      ⟨handle, .replicate Wire.midstateLength 7, .replicate Wire.dataLength 9, epoch⟩
    let q := empty.applyAll [.append (.start 1) (item 0 1)]
    q.items.toList = [item 0 1] ∧ (q.append (.start 1) (item 1 1)).1 = false ∧
      (q.append (.start 2) (item 1 2)).2.items.toList = [item 1 2] := by
  intro item q
  have hitems : q.items.toList = [item 0 1] := rfl
  obtain ⟨_, _, _, _, _, _, happend⟩ := backpressure [.append (.start 1) (item 0 1)]
  have hrefused := (happend (.start 1) (item 1 1)).1
  obtain ⟨hiff, _, htaken⟩ := happend (.start 2) (item 1 2)
  refine ⟨hitems, hrefused.mpr ⟨rfl, by decide⟩, (htaken ?_).trans rfl⟩
  rw [← Bool.not_eq_false, hiff]
  decide

end Hashboard.WorkQueue
