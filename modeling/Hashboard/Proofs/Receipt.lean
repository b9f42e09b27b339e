import Hashboard.Proofs.Consecutive
import Hashboard.Proofs.Dispatch
import Hashboard.Proofs.Transmission

/-!
# What the end of a cycle changes

A reply first retires finished work from the table, then a flush empties it, then the accepted items enter
it under the next ids and leave the queue. A failed exchange changes nothing, but a flush stays due.
-/

namespace Hashboard

namespace Poller

variable {t : InFlight}

/-! ## Accepted items enter the table -/

theorem insertAccepted_cons (item : Item) (rest : List Item) :
    (insertAccepted t (item :: rest)).2 = (insertAccepted (t.insertNext item).2.2 rest).2 := rfl

theorem insertAccepted_reissued (item : Item) (rest : List Item) :
    (insertAccepted t (item :: rest)).1 =
      if (t.get? t.nextId).isSome then t.nextId :: (insertAccepted (t.insertNext item).2.2 rest).1
      else (insertAccepted (t.insertNext item).2.2 rest).1 := rfl

theorem sound_insertAccepted (h : t.Sound) (items : List Item) : (insertAccepted t items).2.Sound := by
  induction items generalizing t with
  | nil => exact h
  | cons item rest ih => exact ih (h.insertNext item)

theorem mem_live_insertAccepted (h : t.Sound) {items : List Item} {p}
    (hp : p ∈ (insertAccepted t items).2.live) : p ∈ t.live ∨ p.2 ∈ items := by
  induction items generalizing t with
  | nil => exact Or.inl hp
  | cons item rest ih =>
      rcases ih (h.insertNext item) hp with hp | hp
      · rw [h.live_insertNext, List.mem_append, List.mem_singleton] at hp
        rcases hp with hp | rfl
        · exact Or.inl (List.mem_filter.mp hp).1
        · exact Or.inr (by simp)
      · exact Or.inr (by simp [hp])

/-- Accepted items enter in order, behind those that stay. -/
theorem live_insertAccepted_sublist (h : t.Sound) (items : List Item) :
    ((insertAccepted t items).2.live.map Prod.snd).Sublist (t.live.map Prod.snd ++ items) := by
  induction items generalizing t with
  | nil => simp [insertAccepted]
  | cons item rest ih =>
      refine (ih (h.insertNext item)).trans ?_
      rw [h.live_insertNext, List.map_append, List.append_assoc]
      exact List.Sublist.append_right (List.filter_sublist.map Prod.snd) _

/-- The rows of accepted items, as they enter the table. -/
def entering (t : InFlight) (items : List Item) : List (Nat × UInt16 × Item) :=
  items.mapIdx fun k item => (t.nextSeq + k, t.idAt k, item)

@[simp] theorem length_entering (t : InFlight) (items : List Item) :
    (entering t items).length = items.length := List.length_mapIdx

@[simp] theorem items_entering (t : InFlight) (items : List Item) :
    (entering t items).map (·.2.2) = items := by
  refine List.ext_getElem? fun k => ?_
  simp [entering, Function.comp_def]

theorem places_entering (t : InFlight) (items : List Item) :
    (entering t items).map Prod.snd = ((List.range items.length).map t.idAt).zip items := by
  refine List.ext_getElem (by simp) fun k hk _ => ?_
  simp [entering]

theorem mem_entering {items : List Item} {row} :
    row ∈ entering t items ↔ ∃ k item, items[k]? = some item ∧ row = (t.nextSeq + k, t.idAt k, item) := by
  simp only [entering, List.mem_mapIdx, List.getElem?_eq_some_iff]
  constructor
  · rintro ⟨k, hk, rfl⟩
    exact ⟨k, _, ⟨hk, rfl⟩, rfl⟩
  · rintro ⟨k, _, ⟨hk, rfl⟩, rfl⟩
    exact ⟨k, hk, rfl⟩

/-- Accepted items stand in order behind the entries whose ids they do not take. -/
theorem rows_insertAccepted (h : t.Sound) {items : List Item} (hlen : items.length ≤ Wire.idSpace) :
    (insertAccepted t items).2.rows =
      (t.rows.filter fun row => ∀ k, k < items.length → t.idAt k ≠ row.2.1) ++ entering t items := by
  induction items generalizing t with
  | nil => simp [insertAccepted, entering]
  | cons item rest ih =>
      rw [List.length_cons] at hlen
      rw [insertAccepted_cons, ih (h.insertNext item) (by omega), h.rows_insertNext]
      have hfirst : entering t (item :: rest) =
          (t.nextSeq, t.nextId, item) :: entering (t.insertNext item).2.2 rest := by
        simp only [entering, List.mapIdx_cons, h.idAt_zero, Nat.add_zero, InFlight.nextSeq_insertNext,
          InFlight.idAt_insertNext, Nat.add_assoc, Nat.add_comm 1]
      -- the next id is not given out again: there are too few items for that
      have hstays : ∀ k, k < rest.length → t.idAt (k + 1) ≠ t.nextId := by
        intro k hk he
        have := InFlight.idAt_inj (by omega) (by simp [Wire.idSpace]) (he.trans h.idAt_zero.symm)
        omega
      have hfree : ∀ id : UInt16, (∀ k, k < rest.length + 1 → t.idAt k ≠ id) ↔
          (∀ k, k < rest.length → t.idAt (k + 1) ≠ id) ∧ id ≠ t.nextId := by
        intro id
        constructor
        · intro hall
          exact ⟨fun k hk => hall (k + 1) (by omega), fun he => hall 0 (by omega) (h.idAt_zero.trans he.symm)⟩
        · rintro ⟨hrest, hnext⟩ k hk
          cases k with
          | zero => exact fun he => hnext (he.symm.trans h.idAt_zero)
          | succ k => exact hrest k (by omega)
      rw [hfirst, List.filter_append, List.filter_filter, List.append_assoc]
      simp only [InFlight.idAt_insertNext, List.length_cons, hfree, Bool.decide_and]
      congr 1
      rw [List.filter_eq_self.mpr, List.singleton_append]
      intro row hrow
      obtain rfl := List.mem_singleton.mp hrow
      exact decide_eq_true hstays

/-- So the ids under which they stand are those that come next. -/
theorem live_insertAccepted (h : t.Sound) {items : List Item} (hlen : items.length ≤ Wire.idSpace) :
    ∃ kept, kept.Sublist t.live ∧
      (insertAccepted t items).2.live = kept ++ ((List.range items.length).map t.idAt).zip items := by
  have hkept := List.filter_sublist (l := t.rows)
    (p := fun row => decide (∀ k, k < items.length → t.idAt k ≠ row.2.1))
  refine ⟨_, t.live_eq ▸ hkept.map Prod.snd, ?_⟩
  rw [InFlight.live_eq, rows_insertAccepted h hlen, List.map_append, places_entering]

/-- Who holds an id after accepted items have entered: the accepted item that got it, or, if none did, the
item that held it before. -/
theorem get?_insertAccepted (h : t.Sound) {items : List Item} (hlen : items.length ≤ Wire.idSpace)
    {id : UInt16} {item : Item} :
    (insertAccepted t items).2.get? id = some item ↔
      (∃ k, items[k]? = some item ∧ t.idAt k = id) ∨
        ((∀ k, k < items.length → t.idAt k ≠ id) ∧ t.get? id = some item) := by
  induction items generalizing t with
  | nil => simp [insertAccepted]
  | cons first rest ih =>
      rw [List.length_cons] at hlen
      rw [insertAccepted_cons, ih (h.insertNext first) (by omega)]
      simp only [InFlight.idAt_insertNext, InFlight.get?_insertNext]
      constructor
      · rintro (⟨k, hk, hid⟩ | ⟨hrest, hget⟩)
        · exact Or.inl ⟨k + 1, hk, hid⟩
        · split at hget
          · rename_i hnext
            exact Or.inl ⟨0, hget, h.idAt_zero.trans hnext⟩
          · rename_i hnext
            refine Or.inr ⟨?_, hget⟩
            intro k hk
            cases k with
            | zero => rw [h.idAt_zero]; exact hnext
            | succ k => exact hrest k (by simpa using hk)
      · rintro (⟨k, hk, hid⟩ | ⟨hall, hget⟩)
        · cases k with
          | zero =>
              -- a later item cannot get the same id: there are too few of them
              refine Or.inr ⟨?_, ?_⟩
              · intro k hk' hid'
                have := InFlight.idAt_inj (by omega) (by simp [Wire.idSpace]) (hid'.trans hid.symm)
                omega
              · rw [h.idAt_zero] at hid
                simpa [hid] using hk
          | succ k => exact Or.inl ⟨k, hk, hid⟩
        · have hnext : t.nextId ≠ id := h.idAt_zero ▸ hall 0 (by simp)
          exact Or.inr ⟨fun k hk => hall (k + 1) (by simpa using hk), by simpa [hnext] using hget⟩

/-- If the ids on the boards are in a row and there are ids enough, accepted items push nothing out. -/
theorem insertAccepted_consecutive (ht : t.Sound) (hc : t.Consecutive) {items : List Item}
    (hroom : t.ids.length + items.length ≤ Wire.idSpace) :
    (insertAccepted t items).1 = [] ∧
      (insertAccepted t items).2.live =
        t.live ++ ((List.range items.length).map t.idAt).zip items ∧
      (insertAccepted t items).2.Consecutive := by
  induction items generalizing t with
  | nil => exact ⟨rfl, by simp [insertAccepted], hc⟩
  | cons item rest ih =>
      rw [List.length_cons] at hroom
      have hlive := hc.live_insertNext ht (by omega) item
      have hfree : t.get? t.nextId = none := ht.idAt_zero ▸ hc.free ht (k := 0) (by omega)
      have hids : (t.insertNext item).2.2.ids.length = t.ids.length + 1 := by
        rw [← (ht.insertNext item).live_ids, hlive, ← ht.live_ids]
        simp
      obtain ⟨hnone, hrest, hcons⟩ :=
        ih (ht.insertNext item) (hc.insertNext ht (by omega) item) (by omega)
      rw [insertAccepted_reissued, insertAccepted_cons, hnone, hfree]
      refine ⟨rfl, ?_, hcons⟩
      rw [hrest, hlive, List.append_assoc, List.length_cons, List.range_succ_eq_map, List.map_cons,
        List.zip_cons_cons, List.map_map, ht.idAt_zero, List.singleton_append]
      congr 3
      refine List.map_congr_left ?_
      intro k _
      exact InFlight.idAt_insertNext

end Poller

/-! ## A reply -/

/-- The items that a reply accepts: a front part of those sent, as many as the header says. -/
def PollCycle.taken (cycle : PollCycle) (rx : List UInt8) : List Item :=
  cycle.sent.take (ReplyHeader.decode rx).accepted.toNat

/-- The table when a reply's records are dispatched and a flush is done. -/
def PollCycle.cleared (cycle : PollCycle) (table : InFlight) (rx : List UInt8) : InFlight :=
  let rest := table.retireAll (Reply.records rx)
  if cycle.flushing then rest.clear else rest

namespace PollCycle

variable {cycle : PollCycle} {t : InFlight} {rx : List UInt8}

theorem mem_taken {item} (h : item ∈ cycle.taken rx) : item ∈ cycle.sent :=
  List.mem_of_mem_take h

theorem taken_length : (cycle.taken rx).length ≤ cycle.sent.length :=
  List.length_take_le' _ _

theorem sound_cleared (h : t.Sound) : (cycle.cleared t rx).Sound := by
  unfold cleared
  simp only []
  split
  · exact (h.retireAll _).clear
  · exact h.retireAll _

@[simp] theorem nextId_cleared : (cycle.cleared t rx).nextId = t.nextId := by
  unfold cleared
  simp only []
  split <;> simp

@[simp] theorem idAt_cleared {k : Nat} : (cycle.cleared t rx).idAt k = t.idAt k := by
  simp [InFlight.idAt, nextId_cleared]

theorem get?_cleared {id} :
    (cycle.cleared t rx).get? id =
      if cycle.flushing ∨ ∃ r ∈ Reply.records rx, r.ends id then none else t.get? id := by
  unfold cleared
  cases cycle.flushing with
  | true => simp
  | false => simp [InFlight.get?_retireAll]

theorem live_cleared_sublist (h : t.Sound) : (cycle.cleared t rx).live.Sublist t.live := by
  unfold cleared
  cases cycle.flushing with
  | true => simp
  | false => exact h.live_retireAll_sublist _

theorem mem_live_cleared (h : t.Sound) {p} (hp : p ∈ (cycle.cleared t rx).live) :
    cycle.flushing = false ∧ p ∈ t.live := by
  unfold cleared at hp
  cases hf : cycle.flushing with
  | true => simp [hf] at hp
  | false => exact ⟨rfl, InFlight.mem_live_retireAll h (by simpa [hf] using hp)⟩

end PollCycle

namespace Poller

variable {p : Poller} {cycle : PollCycle} {rx : List UInt8} {q : WorkQueue}

def tableAfter (p : Poller) (cycle : PollCycle) (rx : List UInt8) : InFlight :=
  (insertAccepted (cycle.cleared p.table rx) (cycle.taken rx)).2

def queueAfter (p : Poller) (cycle : PollCycle) (rx : List UInt8) (q : WorkQueue) : WorkQueue :=
  (settle cycle (ReplyHeader.decode rx) (cycle.cleared p.table rx) q).2.2.2

/-- Even a receipt for nothing may be read as one whose items enter the table. -/
theorem settle_inserted {header : ReplyHeader} {table : InFlight} :
    (settle cycle header table q).2.1 =
        (insertAccepted table (cycle.sent.take header.accepted.toNat)).1 ∧
      (settle cycle header table q).2.2.1 =
        (insertAccepted table (cycle.sent.take header.accepted.toNat)).2 := by
  unfold settle
  split
  · rename_i hz
    simp [hz, insertAccepted]
  · exact ⟨rfl, rfl⟩

theorem dispatch_cleared :
    (if cycle.flushing then (dispatch p.device p.cores p.table rx).table.clear
      else (dispatch p.device p.cores p.table rx).table) = cycle.cleared p.table rx := by
  rw [InFlight.dispatch_table]
  rfl

@[simp] theorem finishReceived_poller :
    (p.finishReceived cycle rx (.sound q)).poller = { p with table := p.tableAfter cycle rx } := by
  simp only [finishReceived, dispatch_cleared, settle_inserted.2]
  rfl

@[simp] theorem finishReceived_queue :
    (p.finishReceived cycle rx (.sound q)).queue = .sound (p.queueAfter cycle rx q) := by
  simp only [finishReceived, dispatch_cleared]
  rfl

@[simp] theorem finishReceived_events :
    (p.finishReceived cycle rx (.sound q)).events = p.table.eventsOf p.cores (Reply.records rx) :=
  InFlight.dispatch_events

section Failed

variable {error : BusError}

@[simp] theorem finishFailed_poller : (p.finishFailed cycle error (.sound q)).poller = p := by
  unfold finishFailed; cases cycle.flushing <;> rfl

@[simp] theorem finishFailed_queue :
    (p.finishFailed cycle error (.sound q)).queue = .sound (if cycle.flushing then q.armFlush else q) := by
  unfold finishFailed; cases cycle.flushing <;> rfl

@[simp] theorem finishFailed_events : (p.finishFailed cycle error (.sound q)).events = [] := by
  unfold finishFailed; cases cycle.flushing <;> rfl

end Failed

@[simp] theorem items_queueAfter :
    (p.queueAfter cycle rx q).items.toList = (cycle.taken rx).foldl List.erase q.items.toList := by
  unfold queueAfter settle PollCycle.taken
  split
  · rename_i hz
    simp [hz, WorkQueue.setNewestInFlight]
  · simp [WorkQueue.setNewestInFlight, WorkQueue.items_removeAccepted]

@[simp] theorem needFlush_queueAfter : (p.queueAfter cycle rx q).needFlush = q.needFlush := by
  unfold queueAfter settle
  split
  · rfl
  · simp [WorkQueue.setNewestInFlight, WorkQueue.removeAccepted, WorkQueue.measure]

@[simp] theorem counts_queueAfter : (p.queueAfter cycle rx q).counts = q.counts := by
  unfold queueAfter settle
  split
  · rfl
  · simp [WorkQueue.setNewestInFlight, WorkQueue.removeAccepted, WorkQueue.measure]

/-- The capacity never shrinks, and it grows to what the boards tell. -/
theorem le_capacity_queueAfter :
    q.capacity ≤ (p.queueAfter cycle rx q).capacity ∧
      min (ReplyHeader.decode rx).accepted.toNat WorkQueue.maxCapacity ≤
        (p.queueAfter cycle rx q).capacity := by
  unfold queueAfter settle
  split
  · rename_i hz
    simp [hz, WorkQueue.setNewestInFlight]
  · exact WorkQueue.le_capacity_observeAccepted

@[simp] theorem newestInFlight_queueAfter :
    (p.queueAfter cycle rx q).newestInFlight = (p.tableAfter cycle rx).newest? := by
  unfold queueAfter tableAfter PollCycle.taken settle
  split
  · rename_i hz
    simp [hz, insertAccepted, WorkQueue.setNewestInFlight]
  · rfl

theorem sound_tableAfter (h : p.table.Sound) : (p.tableAfter cycle rx).Sound :=
  sound_insertAccepted (PollCycle.sound_cleared h) _

/-- What can happen to an entry of the table. -/
theorem get?_tableAfter_cases (h : p.table.Sound) (hlen : (cycle.taken rx).length ≤ Wire.idSpace)
    {id : UInt16} {item : Item} (hg : p.table.get? id = some item) :
    (p.tableAfter cycle rx).get? id = some item ∨ (∃ r ∈ Reply.records rx, r.ends id) ∨
      cycle.flushing = true ∨ ∃ k, k < (cycle.taken rx).length ∧ p.table.idAt k = id := by
  by_cases hk : ∃ k, k < (cycle.taken rx).length ∧ p.table.idAt k = id
  · exact Or.inr (Or.inr (Or.inr hk))
  by_cases hgone : cycle.flushing ∨ ∃ r ∈ Reply.records rx, r.ends id
  · rcases hgone with hf | hends
    · exact Or.inr (Or.inr (Or.inl hf))
    · exact Or.inr (Or.inl hends)
  · refine Or.inl ((get?_insertAccepted (PollCycle.sound_cleared h) hlen).mpr (Or.inr ⟨?_, ?_⟩))
    · intro k hlt he
      exact hk ⟨k, hlt, PollCycle.idAt_cleared.symm.trans he⟩
    · rw [PollCycle.get?_cleared, if_neg hgone]
      exact hg

theorem mem_live_tableAfter (h : p.table.Sound) {pair} (hp : pair ∈ (p.tableAfter cycle rx).live) :
    (cycle.flushing = false ∧ pair ∈ p.table.live) ∨ pair.2 ∈ cycle.taken rx :=
  (mem_live_insertAccepted (PollCycle.sound_cleared h) hp).imp_left (PollCycle.mem_live_cleared h)

end Poller

end Hashboard
