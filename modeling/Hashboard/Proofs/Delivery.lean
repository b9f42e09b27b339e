import Hashboard.Proofs.Traffic

/-!
# Items on their way to the boards

An item goes from the queue to the bus and from there to the table, while callers change the queue as they
like. If the queue takes no item twice, the boards get no item twice, in the order in which the queue took
them; and an item that is no longer on its way was dropped by a caller or taken off the boards.
-/

namespace Hashboard

/-! ## Four lists in line -/

/-- The items of four places on the way, in the order in which they were taken: those shipped, those on the
bus, and behind them those that wait. An item on the bus may wait still, as it leaves the queue only when
it is accepted. -/
def InLine (shipped onBus waiting taken : List Item) : Prop :=
  ∃ front behind, waiting = front ++ behind ∧ front.Sublist onBus ∧
    (shipped ++ (onBus ++ behind)).Sublist taken

namespace InLine

variable {shipped onBus waiting waiting' taken added sent rest : List Item}

/-- Items leave the queue anywhere and join it at the end. -/
theorem wait (h : InLine shipped onBus waiting taken) (hw : waiting'.Sublist (waiting ++ added)) :
    InLine shipped onBus waiting' (taken ++ added) := by
  obtain ⟨front, behind, rfl, hfront, hline⟩ := h
  rw [List.append_assoc, List.sublist_append_iff] at hw
  obtain ⟨front', behind', rfl, hf, hb⟩ := hw
  refine ⟨front', behind', rfl, hf.trans hfront, ?_⟩
  refine List.Sublist.trans ?_ (List.Sublist.append_right hline added)
  simpa only [List.append_assoc] using (hb.append_left onBus).append_left shipped

/-- Items in front of the queue go on the bus. -/
theorem send (h : InLine shipped [] waiting taken) (hw : (sent ++ rest).Sublist waiting) :
    InLine shipped sent (sent ++ rest) taken := by
  obtain ⟨front, behind, rfl, hfront, hline⟩ := h
  obtain rfl := List.sublist_nil.mp hfront
  exact ⟨sent, rest, rfl, List.Sublist.refl _, (hw.append_left shipped).trans hline⟩

/-- Nothing on the bus is accepted. -/
theorem failed (h : InLine shipped onBus waiting taken) : InLine shipped [] waiting taken := by
  obtain ⟨front, behind, rfl, hfront, hline⟩ := h
  refine ⟨[], front ++ behind, rfl, List.Sublist.refl _, ?_⟩
  exact ((hfront.append_right behind).append_left shipped).trans hline

/-- The first items on the bus are accepted and leave the queue, wherever in it they are. -/
theorem ship (h : InLine shipped onBus waiting taken) (hnd : taken.Nodup) (n : Nat) :
    InLine (shipped ++ onBus.take n) [] ((onBus.take n).foldl List.erase waiting) taken := by
  obtain ⟨front, behind, rfl, hfront, hline⟩ := h
  have hall : (onBus ++ behind).Nodup := (List.nodup_append.mp (hnd.sublist hline)).2.1
  have hparts := List.nodup_append.mp hall
  refine ⟨[], _, rfl, List.Sublist.refl _, List.Sublist.trans ?_ hline⟩
  rw [WorkQueue.foldl_erase_nodup (hall.sublist (hfront.append_right behind)), List.filter_append,
    List.nil_append, List.append_assoc]
  refine List.Sublist.append_left ?_ shipped
  -- of those on the bus, only those that are not accepted are left
  have hbus : (onBus.filter fun item => item ∉ onBus.take n) = onBus.drop n := by
    have hsplit : (onBus.take n ++ onBus.drop n).Nodup := by
      rw [List.take_append_drop]
      exact hparts.1
    have hfar := (List.nodup_append.mp hsplit).2.2
    conv_lhs => arg 2; rw [← List.take_append_drop n onBus]
    rw [List.filter_append, List.filter_eq_nil_iff.mpr (by simp), List.nil_append,
      List.filter_eq_self]
    intro item hi
    rw [decide_eq_true_eq]
    exact fun ht => hfar _ ht _ hi rfl
  have hleft : ((front.filter fun item => item ∉ onBus.take n) ++
      (behind.filter fun item => item ∉ onBus.take n)).Sublist (onBus.drop n ++ behind) := by
    rw [← hbus]
    exact (hfront.filter _).append List.filter_sublist
  have hjoin : onBus.take n ++ (onBus.drop n ++ behind) = onBus ++ behind := by
    rw [← List.append_assoc, List.take_append_drop]
  rw [← hjoin]
  exact hleft.append_left _

theorem shipped_sublist (h : InLine shipped onBus waiting taken) : shipped.Sublist taken := by
  obtain ⟨_, _, _, _, hline⟩ := h
  exact (List.sublist_append_left _ _).trans hline

/-- What is on the bus or waits was not shipped before. -/
theorem not_shipped (h : InLine shipped onBus waiting taken) (hnd : taken.Nodup) {item : Item}
    (hi : item ∈ onBus ∨ item ∈ waiting) : item ∉ shipped := by
  obtain ⟨front, behind, rfl, hfront, hline⟩ := h
  have hfar := (List.nodup_append.mp (hnd.sublist hline)).2.2
  have hin : item ∈ onBus ++ behind := by
    rw [List.mem_append] at hi ⊢
    rcases hi with hi | hi | hi
    · exact Or.inl hi
    · exact Or.inl (hfront.subset hi)
    · exact Or.inr hi
  exact fun hs => hfar _ hs _ hin rfl

end InLine

namespace PollLoop

/-! ## What a step does to an item -/

/-- The items on the bus. -/
def onBus (s : PollLoop) : List Item :=
  s.running.elim [] PollCycle.sent

/-- The move drops stale items from the queue. -/
def Move.prunes : Move → Bool
  | .call (.append _) | .call .prune | .begin _ => true
  | .call _ | .finish _ => false

namespace Step

/-- The items that the queue takes in a step. -/
def enqueued (step : Step Move) : List Item :=
  match step.action with
  | .call (.append item) => if (step.before.queue.append step.before.clock item).1 then [item] else []
  | _ => []

/-- The items that the boards accept in a step. -/
def shipped (step : Step Move) : List Item :=
  match step.action, step.before.running with
  | .finish (.received rx), some cycle => cycle.taken rx
  | _, _ => []

/-- The step drops an item that waits, or one that the queue has just taken. -/
inductive Discards (step : Step Move) (item : Item) : Prop where
  | pruned (move : step.action.prunes = true) (stale : step.before.clock.isStale .relaxed item = true)
      (before : item ∈ step.before.queue.items.toList ∨ item ∈ step.enqueued)
      (after : item ∉ step.after.queue.items.toList)
  | flushed (now : Instant) (move : step.action = .call (.flush now))
      (before : item ∈ step.before.queue.items.toList)

/-- The step takes an item off the boards: a record says that its search has ended, a flush drops it, or an
accepted item gets its id. -/
inductive Releases (step : Step Move) (item : Item) : Prop where
  | retired (rx : List UInt8) (r : ReplyRecord) (move : step.action = .finish (.received rx))
      (record : r ∈ Reply.records rx) (done : r.kind = .done)
      (before : step.before.poller.table.get? r.id = some item)
  | dropped (rx : List UInt8) (cycle : PollCycle) (move : step.action = .finish (.received rx))
      (running : step.before.running = some cycle) (flushing : cycle.flushing = true)
      (before : item ∈ step.before.inFlight)
  | displaced (rx : List UInt8) (cycle : PollCycle) (k : Nat) (move : step.action = .finish (.received rx))
      (running : step.before.running = some cycle) (accepted : k < (cycle.taken rx).length)
      (before : step.before.poller.table.get? (step.before.poller.table.idAt k) = some item)

end Step

/-- The items that the queue has taken, in order. -/
def enqueued (past : List (Step Move)) : List Item :=
  past.flatMap Step.enqueued

/-- The items that the boards have accepted, in order. -/
def shipped (past : List (Step Move)) : List Item :=
  past.flatMap Step.shipped

variable {s s' : PollLoop} {past : List (Step Move)} {last : Step Move} {move : Move} {item : Item}
  {cycle : PollCycle} {rx : List UInt8}

@[simp] theorem enqueued_append : enqueued (past ++ [last]) = enqueued past ++ last.enqueued := by
  simp [enqueued]

@[simp] theorem shipped_append : shipped (past ++ [last]) = shipped past ++ last.shipped := by
  simp [shipped]

theorem Step.shipped_received (hr : s.running = some cycle) :
    (Step.mk s (.finish (.received rx)) s').shipped = cycle.taken rx := by
  simp [Step.shipped, hr]

/-- A step that drops waiting items ships none. -/
theorem Step.Discards.shipped_eq (h : last.Discards item) : last.shipped = [] := by
  cases h with
  | pruned move =>
      unfold Step.shipped
      cases ha : last.action with
      | finish exchange => simp [ha, Move.prunes] at move
      | call c => rfl
      | begin now => rfl
  | flushed now move => simp [Step.shipped, move]

theorem mem_inFlight (hs : s.poller.table.Sound) :
    item ∈ s.inFlight ↔ ∃ id, s.poller.table.get? id = some item := by
  simp only [inFlight, List.mem_map]
  constructor
  · rintro ⟨⟨id, _⟩, hp, rfl⟩
    exact ⟨id, hs.mem_live.mp hp⟩
  · rintro ⟨id, hg⟩
    exact ⟨(id, item), hs.mem_live.mpr hg, rfl⟩

/-! ## The queue -/

/-- What waits, or is taken, waits afterwards, is dropped, or is accepted by the boards. -/
theorem mem_queue_step (h : s.move? move = some s')
    (hi : item ∈ s.queue.items.toList ∨ item ∈ (Step.mk s move s').enqueued) :
    item ∈ s'.queue.items.toList ∨ (Step.mk s move s').Discards item ∨
      item ∈ (Step.mk s move s').shipped := by
  -- a move that prunes drops nothing but stale items
  have hprune : move.prunes = true →
      (s.clock.isStale .relaxed item = false → item ∈ s'.queue.items.toList) →
      item ∈ s'.queue.items.toList ∨ (Step.mk s move s').Discards item := by
    intro hmove hfresh
    cases hstale : s.clock.isStale .relaxed item with
    | false => exact Or.inl (hfresh hstale)
    | true =>
        by_cases hin : item ∈ s'.queue.items.toList
        · exact Or.inl hin
        · exact Or.inr (.pruned hmove hstale hi hin)
  rw [← or_assoc]
  rcases move?_cases h with ⟨c, rfl, rfl⟩ | ⟨now, rfl, _, rfl⟩ | ⟨cycle, rx, rfl, hr, rfl⟩ |
    ⟨cycle, error, rfl, _, rfl⟩
  · cases c with
    | append other =>
        refine Or.inl (hprune rfl ?_)
        intro hfresh
        refine WorkQueue.mem_append_of_fresh hfresh (hi.imp_right ?_)
        intro hnew
        simp only [Step.enqueued] at hnew
        split at hnew
        · rename_i htaken
          exact ⟨htaken, List.mem_singleton.mp hnew⟩
        · cases hnew
    | prune =>
        refine Or.inl (hprune rfl ?_)
        intro hfresh
        simp only [call, WorkQueue.items_prune]
        exact WorkQueue.mem_freshOf (hi.resolve_right List.not_mem_nil) hfresh
    | flush now => exact Or.inl (Or.inr (.flushed now rfl (hi.resolve_right List.not_mem_nil)))
    | armFlush => exact Or.inl (Or.inl (hi.resolve_right List.not_mem_nil))
    | advance epoch keepInFlight => exact Or.inl (Or.inl (hi.resolve_right List.not_mem_nil))
  · refine Or.inl (hprune rfl ?_)
    intro hfresh
    simp only [begin, Poller.begin_rest, Poller.items_beginQueue]
    exact WorkQueue.mem_freshOf (hi.resolve_right List.not_mem_nil) hfresh
  · rw [Step.shipped_received hr]
    simp only [received, Poller.items_queueAfter]
    have hcases := WorkQueue.mem_or_mem_foldl_erase
      (hi.resolve_right List.not_mem_nil) (cycle.taken rx)
    exact hcases.symm.imp_left Or.inl
  · rw [items_failed]
    exact Or.inl (Or.inl (hi.resolve_right List.not_mem_nil))

/-- The queue keeps its order. -/
theorem items_call (s : PollLoop) (c : Call) :
    (s.call c).queue.items.toList.Sublist
      (s.queue.items.toList ++ (Step.mk s (.call c) (s.call c)).enqueued) := by
  cases c with
  | append item => exact WorkQueue.append_sublist
  | prune =>
      simp only [call, WorkQueue.items_prune, Step.enqueued, List.append_nil]
      exact WorkQueue.freshOf_sublist
  | flush now => simp [call]
  | armFlush => simp [call, Step.enqueued, WorkQueue.armFlush]
  | advance epoch keepInFlight => simp [call, Step.enqueued]

/-! ## The table -/

/-- What is in flight stays so, unless the step takes it off the boards. -/
theorem mem_inFlight_step (hs : s.poller.table.Sound)
    (hsent : ∀ cycle, s.running = some cycle → cycle.sent.length ≤ Wire.idSpace)
    (h : s.move? move = some s') (hi : item ∈ s.inFlight) :
    item ∈ s'.inFlight ∨ (Step.mk s move s').Releases item := by
  rcases move?_cases h with ⟨c, rfl, rfl⟩ | ⟨now, rfl, _, rfl⟩ | ⟨cycle, rx, rfl, hr, rfl⟩ |
    ⟨cycle, error, rfl, _, rfl⟩
  · rw [inFlight_call]
    exact Or.inl hi
  · exact Or.inl hi
  · have hlen : (cycle.taken rx).length ≤ Wire.idSpace :=
      Nat.le_trans PollCycle.taken_length (hsent cycle hr)
    obtain ⟨id, hg⟩ := (mem_inFlight hs).mp hi
    rcases Poller.get?_tableAfter_cases hs hlen hg with hg' | ⟨r, hmem, hdone, rfl⟩ | hf | ⟨k, hk, rfl⟩
    · exact Or.inl ((mem_inFlight (Poller.sound_tableAfter hs)).mpr ⟨id, hg'⟩)
    · exact Or.inr (.retired rx r rfl hmem hdone hg)
    · exact Or.inr (.dropped rx cycle rfl hr hf hi)
    · exact Or.inr (.displaced rx cycle k rfl hr hk hg)
  · exact Or.inl hi

/-- What the boards accept is in flight when the cycle has ended. -/
theorem mem_inFlight_of_shipped (hs : s.poller.table.Sound)
    (hsent : ∀ cycle, s.running = some cycle → cycle.sent.length ≤ Wire.idSpace)
    (h : s.move? move = some s') (hi : item ∈ (Step.mk s move s').shipped) : item ∈ s'.inFlight := by
  rcases move?_cases h with ⟨c, rfl, rfl⟩ | ⟨now, rfl, _, rfl⟩ | ⟨cycle, rx, rfl, hr, rfl⟩ |
    ⟨cycle, error, rfl, _, rfl⟩
  · cases hi
  · cases hi
  · rw [Step.shipped_received hr] at hi
    have hcleared : (cycle.cleared s.poller.table rx).Sound := PollCycle.sound_cleared hs
    have hlen : (cycle.taken rx).length ≤ Wire.idSpace :=
      Nat.le_trans PollCycle.taken_length (hsent cycle hr)
    obtain ⟨k, hk⟩ := List.mem_iff_getElem?.mp hi
    refine (mem_inFlight (Poller.sound_tableAfter hs)).mpr
      ⟨(cycle.cleared s.poller.table rx).idAt k, ?_⟩
    exact (Poller.get?_insertAccepted hcleared hlen).mpr (Or.inl ⟨k, hk, rfl⟩)
  · cases hi

/-- The table keeps its order. -/
theorem inFlight_received (hs : s.poller.table.Sound) :
    (s.received cycle rx).inFlight.Sublist (s.inFlight ++ cycle.taken rx) := by
  have hcleared : (cycle.cleared s.poller.table rx).live.Sublist s.poller.table.live := by
    unfold PollCycle.cleared
    cases cycle.flushing with
    | true => simp
    | false => exact hs.live_retireAll_sublist _
  refine (Poller.live_insertAccepted_sublist (PollCycle.sound_cleared hs) _).trans ?_
  exact List.Sublist.append_right (hcleared.map Prod.snd) _

/-! ## Histories -/

/-- What a history keeps in order: the items in flight are among those shipped, and all are in line. -/
structure Ordered (past : List (Step Move)) (s : PollLoop) : Prop where
  table : s.poller.table.Sound
  begun : ∀ cycle, s.running = some cycle →
    ∃ clock now queue, cycle = (s.poller.begin clock now queue).1
  held : s.inFlight.Sublist (shipped past)
  line : InLine (shipped past) s.onBus s.queue.items.toList (enqueued past)

theorem Ordered.sent_length (hs : Ordered past s) (cycle : PollCycle) (hr : s.running = some cycle) :
    cycle.sent.length ≤ Wire.idSpace := by
  obtain ⟨clock, now, queue, rfl⟩ := hs.begun cycle hr
  exact Poller.begin_sent_fits s.poller clock now queue

theorem ordered_start (device : String) (cores : CoreMap) (interval : Nat) (epoch : UInt64) :
    Ordered [] (start device cores interval epoch) where
  table := InFlight.sound_empty
  begun := by simp [start]
  held := by simp [start, inFlight, Poller.start]
  line := ⟨[], [], rfl, List.Sublist.refl _, List.Sublist.refl _⟩

theorem Ordered.call (hs : Ordered past s) (c : Call) :
    Ordered (past ++ [⟨s, .call c, s.call c⟩]) (s.call c) where
  table := by simpa using hs.table
  begun := by simpa using hs.begun
  held := by simpa [Step.shipped] using hs.held
  line := by
    have hbus : (s.call c).onBus = s.onBus := by simp [onBus]
    simpa [hbus, Step.shipped] using hs.line.wait (items_call s c)

theorem Ordered.begin (hs : Ordered past s) (hr : s.running = none) (now : Instant) :
    Ordered (past ++ [⟨s, .begin now, s.begin now⟩]) (s.begin now) where
  table := hs.table
  begun := fun _ hrun => ⟨s.clock, now, s.queue, (Option.some.inj hrun).symm⟩
  held := by
    rw [shipped_append]
    exact hs.held.trans (List.sublist_append_left _ _)
  line := by
    have hbus : s.onBus = [] := by simp [onBus, hr]
    obtain ⟨rest, hrest⟩ : ∃ rest, (s.begin now).queue.items.toList = (s.begin now).onBus ++ rest := by
      simp only [onBus, Option.elim_some, Poller.begin_sent, PollLoop.begin,
        Poller.begin_rest, Poller.items_beginQueue]
      exact ⟨_, (List.take_append_drop _ _).symm⟩
    have hfresh : ((s.begin now).onBus ++ rest).Sublist s.queue.items.toList := by
      rw [← hrest]
      simp only [PollLoop.begin, Poller.begin_rest, Poller.items_beginQueue]
      exact WorkQueue.freshOf_sublist
    have hline := hs.line
    rw [hbus] at hline
    simpa [hrest, Step.shipped, Step.enqueued] using hline.send hfresh

theorem Ordered.received (hs : Ordered past s) (hr : s.running = some cycle)
    (hnd : (enqueued past).Nodup) :
    Ordered (past ++ [⟨s, .finish (.received rx), s.received cycle rx⟩]) (s.received cycle rx) where
  table := Poller.sound_tableAfter hs.table
  begun := by simp [PollLoop.received]
  held := by
    rw [shipped_append, Step.shipped_received hr]
    exact (inFlight_received hs.table).trans (hs.held.append_right _)
  line := by
    have hbus : s.onBus = cycle.sent := by simp [onBus, hr]
    have hline := hs.line
    rw [hbus] at hline
    have hship : InLine (shipped past ++ cycle.taken rx) []
        ((cycle.taken rx).foldl List.erase s.queue.items.toList) (enqueued past) :=
      hline.ship hnd (ReplyHeader.decode rx).accepted.toNat
    rw [shipped_append, Step.shipped_received hr]
    simpa [onBus, PollLoop.received, Step.enqueued] using hship

theorem Ordered.failed (hs : Ordered past s) {error : BusError} :
    Ordered (past ++ [⟨s, .finish (.failed error), s.failed cycle⟩]) (s.failed cycle) where
  table := hs.table
  begun := by simp [PollLoop.failed]
  held := by
    rw [shipped_append]
    exact hs.held.trans (List.sublist_append_left _ _)
  line := by
    rw [items_failed]
    simpa [onBus, PollLoop.failed, Step.shipped, Step.enqueued] using hs.line.failed

theorem Ordered.step (hs : Ordered past s) (h : s.move? move = some s') (hnd : (enqueued past).Nodup) :
    Ordered (past ++ [⟨s, move, s'⟩]) s' := by
  rcases move?_cases h with ⟨c, rfl, rfl⟩ | ⟨now, rfl, hr, rfl⟩ | ⟨cycle, rx, rfl, hr, rfl⟩ |
    ⟨cycle, error, rfl, _, rfl⟩
  · exact hs.call c
  · exact hs.begin hr now
  · exact hs.received hr hnd
  · exact hs.failed

/-- Where an item is that the queue has taken: it waits, it was shipped and is in flight unless some step
took it off the boards, or it was dropped and never shipped. -/
def Located (past : List (Step Move)) (s : PollLoop) (item : Item) : Prop :=
  item ∈ s.queue.items.toList ∨
    (item ∈ shipped past ∧ (item ∈ s.inFlight ∨ ∃ step ∈ past, step.Releases item)) ∨
    (item ∉ shipped past ∧ ∃ step ∈ past, step.Discards item)

/-- An item that waits, or is taken, is accounted for after the step. -/
theorem Ordered.located_step (hs : Ordered past s) (h : s.move? move = some s')
    (hi : item ∈ s.queue.items.toList ∨ item ∈ (Step.mk s move s').enqueued) (hnew : item ∉ shipped past) :
    Located (past ++ [⟨s, move, s'⟩]) s' item := by
  rcases mem_queue_step h hi with hq | hd | hship
  · exact Or.inl hq
  · refine Or.inr (Or.inr ⟨?_, ⟨s, move, s'⟩, by simp, hd⟩)
    rwa [shipped_append, hd.shipped_eq, List.append_nil]
  · refine Or.inr (Or.inl ⟨?_, Or.inl (mem_inFlight_of_shipped hs.table hs.sent_length h hship)⟩)
    rw [shipped_append]
    exact List.mem_append_right _ hship

theorem Located.step (hs : Ordered past s) (h : s.move? move = some s') (hnd : (enqueued past).Nodup)
    (hl : Located past s item) : Located (past ++ [⟨s, move, s'⟩]) s' item := by
  rcases hl with hq | ⟨hship, hl⟩ | ⟨hnot, step, hmem, hd⟩
  · exact hs.located_step h (Or.inl hq) (hs.line.not_shipped hnd (Or.inr hq))
  · have hship' : item ∈ shipped (past ++ [⟨s, move, s'⟩]) := by
      rw [shipped_append]
      exact List.mem_append_left _ hship
    refine Or.inr (Or.inl ⟨hship', ?_⟩)
    rcases hl with hl | ⟨step, hmem, hr⟩
    · exact (mem_inFlight_step hs.table hs.sent_length h hl).imp_right fun hr =>
        ⟨⟨s, move, s'⟩, by simp, hr⟩
    · exact Or.inr ⟨step, List.mem_append_left _ hmem, hr⟩
  · by_cases hnow : item ∈ (Step.mk s move s').shipped
    · -- dropped from the queue while on the bus, and accepted all the same
      refine Or.inr (Or.inl ⟨?_, Or.inl (mem_inFlight_of_shipped hs.table hs.sent_length h hnow)⟩)
      rw [shipped_append]
      exact List.mem_append_right _ hnow
    · refine Or.inr (Or.inr ⟨?_, step, List.mem_append_left _ hmem, hd⟩)
      rw [shipped_append, List.mem_append]
      exact fun hor => hor.elim hnot hnow

/-- What a history has done with the items that the queue took. -/
structure Delivered (past : List (Step Move)) (s : PollLoop) : Prop where
  /-- No item is accepted by the boards twice, and they accept the items in the order in which the queue
  took them. -/
  once : (shipped past).Nodup
  inOrder : (shipped past).Sublist (enqueued past)
  /-- The table holds nothing else, and in the same order. -/
  held : s.inFlight.Sublist (shipped past)
  /-- The cycle on the bus submits its items, and none that was accepted before. -/
  submitted : ∀ cycle, s.running = some cycle →
    cycle.submissions = (cycle.sent.mapIdx fun k item =>
        Frame.carried (s.poller.table.idAt k) item.work) ∧
      ∀ item ∈ cycle.sent, item ∉ shipped past
  /-- No item both waits and is in flight, or was. -/
  apart : ∀ item ∈ s.queue.items.toList, item ∉ s.inFlight ∧ item ∉ shipped past
  located : ∀ item ∈ enqueued past, Located past s item

/-- If the queue takes no item twice, all items are delivered, whatever happens and in whatever order. -/
theorem delivered {device : String} {cores : CoreMap} {interval : Nat} {epoch : UInt64}
    (h : Reached move? (start device cores interval epoch) past s) (honce : (enqueued past).Nodup) :
    Delivered past s := by
  have hs : Ordered past s ∧ ∀ item ∈ enqueued past, Located past s item := by
    induction h with
    | start => exact ⟨ordered_start device cores interval epoch, by simp [enqueued]⟩
    | @step past s move s' _ hstep ih =>
        rw [enqueued_append] at honce
        obtain ⟨hnd, _, hfar⟩ := List.nodup_append.mp honce
        obtain ⟨hs, hall⟩ := ih hnd
        refine ⟨hs.step hstep hnd, ?_⟩
        intro item hi
        rw [enqueued_append, List.mem_append] at hi
        rcases hi with hi | hi
        · exact (hall item hi).step hs hstep hnd
        · have hnew : item ∉ shipped past := fun hship =>
            hfar _ (hs.line.shipped_sublist.subset hship) _ hi rfl
          exact hs.located_step hstep (Or.inr hi) hnew
  obtain ⟨hs, hall⟩ := hs
  have hnew : ∀ item ∈ s.queue.items.toList, item ∉ shipped past := fun item hi =>
    hs.line.not_shipped honce (Or.inr hi)
  refine ⟨honce.sublist hs.line.shipped_sublist, hs.line.shipped_sublist, hs.held, ?_, ?_, hall⟩
  · intro cycle hr
    constructor
    · obtain ⟨clock, now, queue, rfl⟩ := hs.begun cycle hr
      exact Poller.begin_submissions s.poller clock now queue
    · intro item hi
      refine hs.line.not_shipped honce (Or.inl ?_)
      simpa [onBus, hr] using hi
  · intro item hi
    exact ⟨fun hlive => hnew item hi (hs.held.subset hlive), hnew item hi⟩

/-- An item that is emptied out of the queue while it is on the bus is accepted all the same. -/
theorem delivered_emptied :
    let s₀ := start "knc0" .empty Wire.pollIntervalMicros 1
    let s₁ := s₀.append early
    let s₂ := s₁.begin 0
    let s₃ := s₂.call (.flush 0)
    let s₄ := s₃.received (s₁.cycle 0) (receipt 1)
    let past : List (Step Move) := [⟨s₀, .call (.append early), s₁⟩, ⟨s₁, .begin 0, s₂⟩,
      ⟨s₂, .call (.flush 0), s₃⟩, ⟨s₃, .finish (.received (receipt 1)), s₄⟩]
    Reached move? s₀ past s₄ ∧ enqueued past = [early] ∧ shipped past = [early] ∧
      Delivered past s₄ := by
  intro s₀ s₁ s₂ s₃ s₄ past
  have hr : s₃.running = some (s₁.cycle 0) := rfl
  have hreached : Reached move? s₀ past s₄ :=
    .step (.step (.step (.step .start rfl) rfl) rfl) (finish?_received hr _)
  have hsent : (s₁.cycle 0).sent = [early] := by
    rw [cycle, Poller.begin_sent]
    rfl
  have hshipped : shipped past = [early] := by
    simp [shipped, past, Step.shipped, hr, taken_receipt, hsent]
  have henqueued : enqueued past = [early] := rfl
  exact ⟨hreached, henqueued, hshipped, delivered hreached (by simp [henqueued])⟩

end PollLoop

end Hashboard
