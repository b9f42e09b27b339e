import Hashboard.WorkQueue

/-!
# What the operations of the queue change

For each operation: the waiting items afterwards, the counts, and what stays as it was.
-/

namespace Hashboard

theorem EpochClock.isStale_eq_false {clock : EpochClock} {urgency : Urgency} {item : Item} :
    clock.isStale urgency item = false ↔ clock.threshold urgency ≤ item.epoch := by
  rw [isStale, decide_eq_false_iff_not, UInt64.not_lt]

namespace WorkQueue

variable {q : WorkQueue} {clock : EpochClock} {item : Item} {now : Instant}

/-- The items that are not stale. -/
def freshOf (clock : EpochClock) (items : List Item) : List Item :=
  items.filter fun item => !clock.isStale .relaxed item

theorem current_le_of_mem_freshOf {items : List Item} (h : item ∈ freshOf clock items) :
    clock.current ≤ item.epoch := by
  have hfresh : clock.isStale .relaxed item = false := by simpa using (List.mem_filter.mp h).2
  exact EpochClock.isStale_eq_false.mp hfresh

theorem mem_of_mem_freshOf {items : List Item} (h : item ∈ freshOf clock items) : item ∈ items :=
  (List.mem_filter.mp h).1

theorem mem_freshOf {items : List Item} (h : item ∈ items)
    (hfresh : clock.isStale .relaxed item = false) : item ∈ freshOf clock items :=
  List.mem_filter.mpr ⟨h, by simp [hfresh]⟩

theorem freshOf_eq_self_iff {items : List Item} :
    freshOf clock items = items ↔ ∀ other ∈ items, clock.isStale .relaxed other = false := by
  simp [freshOf, List.filter_eq_self]

theorem size_eq : q.size = q.items.toList.length := by simp [size]

/-! ## Pruning -/

@[simp] theorem items_prune : (q.prune clock).items.toList = freshOf clock q.items.toList := by
  simp [prune, measure, freshOf]

theorem items_prune_of_fresh (h : ∀ item ∈ q.items.toList, clock.isStale .relaxed item = false) :
    (q.prune clock).items.toList = q.items.toList := by
  rw [items_prune, freshOf_eq_self_iff.mpr h]

theorem counts_prune :
    (q.prune clock).counts =
      { q.counts with pruned := q.counts.pruned + (q.size - (q.prune clock).size) } := rfl

theorem size_prune_le (q : WorkQueue) (clock : EpochClock) : (q.prune clock).size ≤ q.size := by
  rw [size_eq, size_eq, items_prune]
  exact List.length_filter_le _ _

/-- The full flag tells whether the queue is at capacity. -/
def Measured (q : WorkQueue) : Prop :=
  q.full = decide (q.capacity ≤ q.size)

/-- Pruning leaves a queue alone that holds nothing stale and knows whether it is full. -/
theorem prune_of_fresh (hm : q.Measured) (h : ∀ item ∈ q.items.toList, clock.isStale .relaxed item = false) :
    q.prune clock = q := by
  have hkept : (q.items.filter fun item => !clock.isStale .relaxed item) = q.items :=
    Array.toList_inj.mp (items_prune_of_fresh h)
  unfold Measured size at hm
  simp only [prune, measure, size, hkept, Nat.sub_self, Nat.add_zero, ← hm]

/-! ## Appending -/

/-- The queue with one more item behind the others, whether there is room or not. -/
def added (q : WorkQueue) (item : Item) : WorkQueue :=
  measure { q with
    items := q.items.push item
    counts := { q.counts with enqueued := q.counts.enqueued + 1 } }

def refused (q : WorkQueue) : WorkQueue :=
  { q with counts := { q.counts with rejected := q.counts.rejected + 1 } }

@[simp] theorem items_added : (q.added item).items.toList = q.items.toList ++ [item] := by
  simp [added, measure]

@[simp] theorem items_refused : q.refused.items = q.items := rfl

/-- The queue that an item is added to: if it was at capacity, the stale items have made room. -/
def relieved (q : WorkQueue) (clock : EpochClock) : WorkQueue :=
  if q.capacity ≤ q.size then q.prune clock else q

@[simp] theorem capacity_relieved : (q.relieved clock).capacity = q.capacity := by
  unfold relieved; split <;> rfl

theorem items_relieved :
    (q.relieved clock).items.toList =
      if q.capacity ≤ q.size then freshOf clock q.items.toList else q.items.toList := by
  unfold relieved; split <;> simp

theorem size_relieved_le : (q.relieved clock).size ≤ q.size := by
  unfold relieved
  split
  · exact size_prune_le q clock
  · exact Nat.le_refl _

theorem append_of_full (h : q.capacity ≤ (q.relieved clock).size) :
    q.append clock item = (false, (q.prune clock).refused) := by
  have hsize : q.capacity ≤ q.size := Nat.le_trans h size_relieved_le
  rw [relieved, if_pos hsize] at h
  have hfull : (q.prune clock).full = true := decide_eq_true h
  rw [append, if_pos hsize]
  exact if_pos hfull

theorem append_of_room (h : (q.relieved clock).size < q.capacity) :
    q.append clock item = (true, (q.relieved clock).push clock item) := by
  unfold relieved at h ⊢
  unfold append
  split
  · rename_i hsize
    rw [if_pos hsize] at h
    have hroom : (q.prune clock).full = false := decide_eq_false (Nat.not_le.mpr h)
    exact if_neg (Bool.eq_false_iff.mp hroom)
  · rfl

theorem append_fst : (q.append clock item).1 = decide ((q.relieved clock).size < q.capacity) := by
  rcases Nat.lt_or_ge (q.relieved clock).size q.capacity with h | h
  · rw [append_of_room h, decide_eq_true h]
  · rw [append_of_full h, decide_eq_false (Nat.not_lt.mpr h)]

theorem size_added (q : WorkQueue) (item : Item) : (q.added item).size = q.size + 1 := by simp [size_eq]

theorem push_eq (q : WorkQueue) (clock : EpochClock) (item : Item) :
    q.push clock item =
      if q.capacity ≤ q.size + 1 then (q.added item).prune clock else q.added item := by
  have hfull : (q.added item).full = decide (q.capacity ≤ q.size + 1) := by
    rw [← size_added q item]
    rfl
  show (if (q.added item).full then (q.added item).prune clock else q.added item) = _
  simp only [hfull, decide_eq_true_eq]

theorem items_push :
    (q.push clock item).items.toList =
      if q.capacity ≤ q.size + 1 then freshOf clock (q.items.toList ++ [item])
      else q.items.toList ++ [item] := by
  rw [push_eq]; split <;> simp

theorem size_push_le : (q.push clock item).size ≤ q.size + 1 := by
  rw [push_eq, ← size_added q item]
  split
  · exact size_prune_le _ _
  · exact Nat.le_refl _

/-- All that appending can do: room is made if need be, then the item is refused, or it is added and
another pruning may follow. -/
theorem append_cases (q : WorkQueue) (clock : EpochClock) (item : Item) :
    q.append clock item = (false, (q.prune clock).refused) ∨
      ∃ r, (r = q ∨ r = q.prune clock) ∧
        (q.append clock item = (true, r.added item) ∨
          q.append clock item = (true, (r.added item).prune clock)) := by
  rcases Nat.lt_or_ge (q.relieved clock).size q.capacity with hroom | hfull
  · refine Or.inr ⟨q.relieved clock, ?_, ?_⟩
    · rw [relieved]
      split
      · exact Or.inr rfl
      · exact Or.inl rfl
    · rw [append_of_room hroom, push_eq]
      split
      · exact Or.inr rfl
      · exact Or.inl rfl
  · exact Or.inl (append_of_full hfull)

theorem mem_append {other : Item} (h : other ∈ (q.append clock item).2.items.toList) :
    other ∈ q.items.toList ∨ other = item := by
  rcases append_cases q clock item with he | ⟨r, hr, he⟩
  · rw [he, items_refused, items_prune] at h
    exact Or.inl (mem_of_mem_freshOf h)
  · have hsub : other ∈ r.items.toList → other ∈ q.items.toList := by
      rcases hr with rfl | rfl
      · exact id
      · rw [items_prune]; exact mem_of_mem_freshOf
    have hin : other ∈ (r.added item).items.toList := by
      rcases he with he | he
      · simpa [he] using h
      · rw [he, items_prune] at h; exact mem_of_mem_freshOf h
    rw [items_added, List.mem_append, List.mem_singleton] at hin
    exact hin.imp_left hsub

@[simp] theorem capacity_append : (q.append clock item).2.capacity = q.capacity := by
  rcases append_cases q clock item with he | ⟨r, rfl | rfl, he | he⟩ <;> rw [he] <;> rfl

/-- Only stale items are missing afterwards. -/
theorem mem_append_of_fresh {other : Item} (hfresh : clock.isStale .relaxed other = false)
    (h : other ∈ q.items.toList ∨ ((q.append clock item).1 = true ∧ other = item)) :
    other ∈ (q.append clock item).2.items.toList := by
  rcases append_cases q clock item with he | ⟨r, hr, he⟩
  · rcases h with h | ⟨htaken, _⟩
    · rw [he, items_refused, items_prune]
      exact mem_freshOf h hfresh
    · simp [he] at htaken
  · have hin : other ∈ (r.added item).items.toList := by
      rw [items_added, List.mem_append, List.mem_singleton]
      refine h.imp ?_ And.right
      intro h
      rcases hr with rfl | rfl
      · exact h
      · rw [items_prune]
        exact mem_freshOf h hfresh
    rcases he with he | he <;> rw [he]
    · exact hin
    · rw [items_prune]
      exact mem_freshOf hin hfresh

@[simp] theorem needFlush_append : (q.append clock item).2.needFlush = q.needFlush := by
  rcases append_cases q clock item with he | ⟨r, rfl | rfl, he | he⟩ <;> rw [he] <;> rfl

@[simp] theorem newestInFlight_append :
    (q.append clock item).2.newestInFlight = q.newestInFlight := by
  rcases append_cases q clock item with he | ⟨r, rfl | rfl, he | he⟩ <;> rw [he] <;> rfl

/-- If nothing is stale, an item is taken as long as there is room. -/
theorem items_append_of_fresh (h : ∀ other ∈ q.items.toList, clock.isStale .relaxed other = false)
    (hi : clock.isStale .relaxed item = false) :
    (q.append clock item).2.items.toList =
      q.items.toList ++ if q.capacity ≤ q.size then [] else [item] := by
  have hall : ∀ other ∈ q.items.toList ++ [item], clock.isStale .relaxed other = false := by
    intro other ho
    rw [List.mem_append, List.mem_singleton] at ho
    rcases ho with ho | rfl
    · exact h other ho
    · exact hi
  have hrelieved : (q.relieved clock).items.toList = q.items.toList := by
    rw [items_relieved, freshOf_eq_self_iff.mpr h, ite_self]
  have hsize : (q.relieved clock).size = q.size := by rw [size_eq, size_eq, hrelieved]
  split
  · rename_i hfull
    rw [append_of_full (hsize ▸ hfull), items_refused, items_prune_of_fresh h, List.append_nil]
  · rename_i hroom
    rw [append_of_room (hsize ▸ Nat.not_le.mp hroom), items_push, hrelieved, freshOf_eq_self_iff.mpr hall,
      ite_self]

/-! ## Flushing -/

@[simp] theorem items_flush : (q.flush clock now).2.items = #[] := by
  unfold flush; simp only []; split <;> rfl

@[simp] theorem needFlush_flush :
    (q.flush clock now).2.needFlush = (q.needFlush || q.inFlightIsStale clock) := by
  unfold flush
  cases q.inFlightIsStale clock <;> simp

/-- A queue that knows of no work on the boards arms no flush. -/
theorem inFlightIsStale_of_none (h : q.newestInFlight = none) : q.inFlightIsStale clock = false := by
  rw [inFlightIsStale, h, Option.any_none]

@[simp] theorem newestInFlight_flush :
    (q.flush clock now).2.newestInFlight = q.newestInFlight := by
  unfold flush; simp only []; split <;> rfl

@[simp] theorem capacity_flush : (q.flush clock now).2.capacity = q.capacity := by
  unfold flush; simp only []; split <;> rfl

theorem counts_flush :
    (q.flush clock now).2.counts = { q.counts with flushed := q.counts.flushed + q.size } := by
  unfold flush; simp only []; split <;> rfl

/-! ## Accepting -/

@[simp] theorem items_observeAccepted {n} : (q.observeAccepted n).2.items = q.items := by
  unfold observeAccepted; split <;> rfl

@[simp] theorem needFlush_observeAccepted {n} :
    (q.observeAccepted n).2.needFlush = q.needFlush := by
  unfold observeAccepted; split <;> rfl

@[simp] theorem counts_observeAccepted {n} : (q.observeAccepted n).2.counts = q.counts := by
  unfold observeAccepted; split <;> rfl

theorem le_capacity_observeAccepted {n} :
    q.capacity ≤ (q.observeAccepted n).2.capacity ∧
      min n maxCapacity ≤ (q.observeAccepted n).2.capacity := by
  unfold observeAccepted
  split
  · rename_i hlt
    exact ⟨Nat.le_refl _, Nat.le_trans (Nat.min_le_left _ _) (Nat.le_of_lt hlt)⟩
  · exact ⟨Nat.le_max_right _ _, Nat.le_max_left _ _⟩

theorem items_removeAccepted {accepted : List Item} :
    (q.removeAccepted accepted).items.toList = accepted.foldl List.erase q.items.toList := by
  simp only [removeAccepted, measure]
  obtain ⟨items⟩ := q.items
  induction accepted generalizing items with
  | nil => rfl
  | cons a rest ih => simp only [List.foldl_cons, List.erase_toArray, ih]

/-- Accepted items that stand in front leave the queue from the front. -/
theorem foldl_erase_front (accepted rest : List Item) :
    accepted.foldl List.erase (accepted ++ rest) = rest := by
  induction accepted with
  | nil => rfl
  | cons a accepted ih => simpa using ih

theorem mem_or_mem_foldl_erase {items : List Item} (h : item ∈ items) (accepted : List Item) :
    item ∈ accepted ∨ item ∈ accepted.foldl List.erase items := by
  induction accepted generalizing items with
  | nil => exact Or.inr h
  | cons a accepted ih =>
      by_cases ha : item = a
      · exact Or.inl (by simp [ha])
      · exact (ih ((List.mem_erase_of_ne ha).mpr h)).imp_left (List.mem_cons_of_mem a)

/-- If no item occurs twice, exactly the accepted ones go. -/
theorem foldl_erase_nodup {items : List Item} (h : items.Nodup) (accepted : List Item) :
    accepted.foldl List.erase items = items.filter fun item => item ∉ accepted := by
  induction accepted generalizing items with
  | nil => exact (List.filter_eq_self.mpr (by simp)).symm
  | cons a accepted ih =>
      rw [List.foldl_cons, ih (h.erase a), h.erase_eq_filter, List.filter_filter]
      refine List.filter_congr ?_
      intro item _
      rw [Bool.eq_iff_iff]
      simp [and_comm]

theorem mem_foldl_erase {accepted items : List Item} {item} (h : item ∈ accepted.foldl List.erase items) :
    item ∈ items := by
  induction accepted generalizing items with
  | nil => exact h
  | cons a accepted ih => exact List.mem_of_mem_erase (ih h)

/-! ## The balance of the counts -/

/-- Every item that entered the queue is in it, was pruned, was flushed, or is one of `moved` that were
moved to the boards. -/
def Accounts (q : WorkQueue) (moved : Nat) : Prop :=
  q.counts.enqueued = q.size + q.counts.pruned + q.counts.flushed + moved

variable {moved : Nat}

theorem Accounts.prune (h : q.Accounts moved) : (q.prune clock).Accounts moved := by
  have hle := q.size_prune_le clock
  unfold Accounts at h ⊢
  rw [counts_prune]
  simp only []
  omega

theorem Accounts.added (h : q.Accounts moved) : (q.added item).Accounts moved := by
  have hsize : (q.added item).size = q.size + 1 := by simp [size_eq]
  unfold Accounts at h ⊢
  rw [hsize]
  simp only [WorkQueue.added, measure]
  omega

theorem Accounts.append (h : q.Accounts moved) : (q.append clock item).2.Accounts moved := by
  rcases append_cases q clock item with he | ⟨r, hr, he⟩
  · rw [he]
    exact h.prune
  · have hroom : r.Accounts moved := by
      rcases hr with rfl | rfl
      · exact h
      · exact h.prune
    rcases he with he | he <;> rw [he]
    · exact hroom.added
    · exact hroom.added.prune

theorem Accounts.flush (h : q.Accounts moved) : (q.flush clock now).2.Accounts moved := by
  have hsize : (q.flush clock now).2.size = 0 := by simp [size]
  unfold Accounts at h ⊢
  rw [hsize, counts_flush]
  simp only []
  omega

/-! ## Runs -/

/-- What can be done to a queue, under the clock as it is then. -/
inductive Op where
  | append (clock : EpochClock) (item : Item)
  | prune (clock : EpochClock)
  | flush (clock : EpochClock) (now : Instant)
  | armFlush
  | disarmFlush
  | observeAccepted (accepted : Nat)
  | removeAccepted (accepted : List Item)
  | setNewestInFlight (item : Option Item)
  | requestPoll (due : Instant)
  | settlePollRequest (now : Instant)

def apply (q : WorkQueue) : Op → WorkQueue
  | .append clock item => (q.append clock item).2
  | .prune clock => q.prune clock
  | .flush clock now => (q.flush clock now).2
  | .armFlush => q.armFlush
  | .disarmFlush => q.disarmFlush
  | .observeAccepted accepted => (q.observeAccepted accepted).2
  | .removeAccepted accepted => q.removeAccepted accepted
  | .setNewestInFlight item => q.setNewestInFlight item
  | .requestPoll due => q.requestPoll due
  | .settlePollRequest now => q.settlePollRequest now

def applyAll (q : WorkQueue) (ops : List Op) : WorkQueue :=
  ops.foldl apply q

/-- The accept count that an operation tells the queue. -/
def Op.accepted? : Op → Option Nat
  | .observeAccepted accepted => some accepted
  | _ => none

/-- The largest accept count among those told. -/
def largestAccepted (ops : List Op) : Nat :=
  (ops.filterMap Op.accepted?).foldr max 0

theorem capacity_apply (op : Op) :
    (q.apply op).capacity = max q.capacity (min (op.accepted?.getD 0) maxCapacity) := by
  cases op with
  | append clock item => simp [apply, Op.accepted?]
  | flush clock now => simp [apply, Op.accepted?]
  | observeAccepted accepted =>
      show (q.observeAccepted accepted).2.capacity = max q.capacity (min accepted maxCapacity)
      unfold WorkQueue.observeAccepted
      split
      · rename_i hlt
        exact (Nat.max_eq_left (Nat.le_trans (Nat.min_le_left _ _) (Nat.le_of_lt hlt))).symm
      · exact Nat.max_comm _ _
  | prune | armFlush | disarmFlush | removeAccepted | setNewestInFlight | requestPoll | settlePollRequest =>
      show q.capacity = max q.capacity (min 0 maxCapacity)
      simp

theorem capacity_applyAll (ops : List Op) :
    (q.applyAll ops).capacity = max q.capacity (min (largestAccepted ops) maxCapacity) := by
  induction ops generalizing q with
  | nil => simp [applyAll, largestAccepted]
  | cons op ops ih =>
      have hlargest : largestAccepted (op :: ops) = max (op.accepted?.getD 0) (largestAccepted ops) := by
        simp only [largestAccepted, List.filterMap_cons]
        cases op.accepted? <;> simp
      have hstep := ih (q := q.apply op)
      rw [capacity_apply] at hstep
      rw [hlargest]
      exact hstep.trans (by omega)

theorem capacity_applyAll_le (h : q.capacity ≤ maxCapacity) (ops : List Op) :
    (q.applyAll ops).capacity ≤ maxCapacity := by
  rw [capacity_applyAll]
  exact Nat.max_le.mpr ⟨h, Nat.min_le_right _ _⟩

/-! ## Order -/

theorem freshOf_sublist {items : List Item} : (freshOf clock items).Sublist items :=
  List.filter_sublist

/-- Appending keeps the order: what is in the queue afterwards was in it before, but for the item itself,
which comes last if it was taken. -/
theorem append_sublist :
    (q.append clock item).2.items.toList.Sublist
      (q.items.toList ++ if (q.append clock item).1 then [item] else []) := by
  rcases append_cases q clock item with he | ⟨r, hr, he⟩
  · simp only [he, items_refused, items_prune, Bool.false_eq_true, if_false, List.append_nil]
    exact freshOf_sublist
  · have hroom : (r.items.toList ++ [item]).Sublist (q.items.toList ++ [item]) := by
      refine List.Sublist.append_right ?_ _
      rcases hr with rfl | rfl
      · exact List.Sublist.refl _
      · rw [items_prune]
        exact freshOf_sublist
    rcases he with he | he <;> simp only [he, items_prune, items_added, if_true]
    · exact hroom
    · exact freshOf_sublist.trans hroom

end WorkQueue

end Hashboard
