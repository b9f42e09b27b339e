import Hashboard.Proofs.PollLoop

/-!
# Hard refreshes and cycles in progress

A hard refresh makes all earlier work stale. It asks for a hardware flush if the newest item in flight is
stale, but items whose transfer is still on the bus are not in flight yet. If nothing else is in flight, no
flush is asked for, and what the boards accept of that transfer stays on them past the refresh.

So the cycles behind a refresh clear the boards of earlier work, whatever happens in between, if and only if
the refresh does not meet such a transfer (`clears_iff`).
-/

namespace Hashboard

/-! ## Epochs -/

namespace EpochClock

variable {clock clock' : EpochClock}

/-- A hard refresh begins a later epoch, and the floor follows. -/
theorem next?_hard (h : clock.next? false = some clock') :
    clock.current < clock'.current ∧ clock'.floor = clock'.current := by
  unfold next? at h
  split at h
  · rename_i hroom
    obtain rfl := Option.some.inj h
    refine ⟨?_, rfl⟩
    simp only [advance, UInt64.lt_iff_toNat_lt, UInt64.toNat_add, UInt64.toNat_one, UInt64.size] at hroom ⊢
    omega
  · cases h

end EpochClock

namespace PollLoop

variable {s s' : PollLoop} {action : Action} {actions : List Action} {cycle : PollCycle}

/-! ## Every reachable state -/

/-- What holds at all times: the queue knows the newest item in flight, nothing is from a later epoch, and a
flush that came due while a cycle is on the bus came due for an item in flight. -/
structure Coherent (s : PollLoop) : Prop where
  table : s.poller.table.Sound
  newest : s.queue.newestInFlight = s.poller.table.newest?
  floor : s.clock.floor = s.clock.current
  queued : ∀ item ∈ s.queue.items.toList, item.epoch ≤ s.clock.current
  onBus : ∀ cycle, s.running = some cycle → ∀ item ∈ cycle.sent, item.epoch ≤ s.clock.current
  onBoards : ∀ item ∈ s.inFlight, item.epoch ≤ s.clock.current
  due : s.running.isSome → s.queue.needFlush = true → s.inFlight ≠ []

theorem mem_sent_begin {now item} (h : (s.begin now).running = some cycle) (hi : item ∈ cycle.sent) :
    item ∈ s.queue.items.toList := by
  rw [running_begin, Option.some.injEq] at h
  rw [← h, Poller.begin_sent] at hi
  exact WorkQueue.mem_of_mem_freshOf (List.mem_of_mem_take hi)

theorem mem_queue_begin {now item} (h : item ∈ (s.begin now).queue.items.toList) :
    item ∈ s.queue.items.toList := by
  simp only [begin, Poller.begin_rest, Poller.items_beginQueue] at h
  exact WorkQueue.mem_of_mem_freshOf h

theorem mem_queue_received {rx item} (h : item ∈ (s.received cycle rx).queue.items.toList) :
    item ∈ s.queue.items.toList := by
  simp only [received, Poller.items_queueAfter] at h
  exact WorkQueue.mem_foldl_erase h

theorem mem_inFlight_received (hs : s.poller.table.Sound) {rx item}
    (h : item ∈ (s.received cycle rx).inFlight) :
    (cycle.flushing = false ∧ item ∈ s.inFlight) ∨ item ∈ cycle.sent := by
  simp only [inFlight, received, List.mem_map] at h ⊢
  obtain ⟨pair, hp, rfl⟩ := h
  rcases Poller.mem_live_tableAfter hs hp with ⟨hf, hl⟩ | ht
  · exact Or.inl ⟨hf, pair, hl, rfl⟩
  · exact Or.inr (PollCycle.mem_taken ht)

theorem coherent_start (device : String) (cores : CoreMap) (interval : Nat) (epoch : UInt64) :
    (start device cores interval epoch).Coherent where
  table := InFlight.sound_empty
  newest := InFlight.newest?_empty.symm
  floor := rfl
  queued := by simp [start, WorkQueue.empty]
  onBus := by simp [start]
  onBoards := by simp [start, inFlight, Poller.start]
  due := by simp [start]

theorem Coherent.append (hs : s.Coherent) {item : Item} (he : item.epoch = s.clock.current) :
    (s.append item).Coherent where
  table := hs.table
  newest := by simpa [PollLoop.append] using hs.newest
  floor := hs.floor
  queued := by
    intro other ho
    rcases WorkQueue.mem_append ho with ho | rfl
    · exact hs.queued other ho
    · exact UInt64.le_of_eq he
  onBus := hs.onBus
  onBoards := hs.onBoards
  due := fun hr hn => hs.due hr (by simpa [PollLoop.append] using hn)

theorem Coherent.newest_isSome (hs : s.Coherent) (h : s.inFlight ≠ []) :
    ∃ item, s.queue.newestInFlight = some item ∧ item ∈ s.inFlight := by
  have hlast := hs.newest.trans hs.table.newest?_eq
  rw [← List.getLast?_map] at hlast
  exact ⟨s.inFlight.getLast h, hlast.trans (List.getLast?_eq_some_getLast h), List.getLast_mem h⟩

theorem Coherent.newest_isNone (hs : s.Coherent) (h : s.inFlight = []) :
    s.queue.newestInFlight = none := by
  rw [hs.newest, hs.table.newest?_eq, ← List.getLast?_map]
  simpa [inFlight] using h

/-- A hard refresh asks for a flush if anything is in flight. -/
theorem Coherent.needFlush_refresh (hs : s.Coherent) {clock : EpochClock}
    (hc : s.clock.next? false = some clock) (now : Instant) :
    (s.refresh clock now).queue.needFlush = (s.queue.needFlush || !s.inFlight.isEmpty) := by
  simp only [refresh, WorkQueue.needFlush_flush, WorkQueue.inFlightIsStale]
  congr 1
  by_cases hnil : s.inFlight = []
  · simp [hs.newest_isNone hnil, hnil]
  · obtain ⟨item, hn, hi⟩ := hs.newest_isSome hnil
    obtain ⟨hlt, hfloor⟩ := EpochClock.next?_hard hc
    have hstale : item.epoch < clock.current := UInt64.lt_of_le_of_lt (hs.onBoards item hi) hlt
    simp [hn, hnil, EpochClock.isStale, EpochClock.threshold, hfloor, hstale]

theorem Coherent.refresh (hs : s.Coherent) {clock : EpochClock}
    (hc : s.clock.next? false = some clock) (now : Instant) : (s.refresh clock now).Coherent where
  table := hs.table
  newest := by simpa [PollLoop.refresh] using hs.newest
  floor := (EpochClock.next?_hard hc).2
  queued := by simp [PollLoop.refresh]
  onBus := by
    intro cycle hr item hi
    exact UInt64.le_trans (hs.onBus cycle hr item hi) (UInt64.le_of_lt (EpochClock.next?_hard hc).1)
  onBoards := by
    intro item hi
    exact UInt64.le_trans (hs.onBoards item hi) (UInt64.le_of_lt (EpochClock.next?_hard hc).1)
  due := by
    intro hr hn
    rw [hs.needFlush_refresh hc, Bool.or_eq_true] at hn
    rcases hn with hn | hn
    · exact hs.due hr hn
    · simpa [PollLoop.refresh, inFlight] using hn

theorem Coherent.begin (hs : s.Coherent) (now : Instant) : (s.begin now).Coherent where
  table := hs.table
  newest := hs.newest
  floor := hs.floor
  queued := fun item hi => hs.queued item (mem_queue_begin hi)
  onBus := fun _ hr item hi => hs.queued item (mem_sent_begin hr hi)
  onBoards := hs.onBoards
  due := by simp [PollLoop.begin, Poller.begin_rest]

theorem Coherent.received (hs : s.Coherent) (hr : s.running = some cycle) (rx : List UInt8) :
    (s.received cycle rx).Coherent where
  table := Poller.sound_tableAfter hs.table
  newest := by simp [PollLoop.received]
  floor := hs.floor
  queued := fun item hi => hs.queued item (mem_queue_received hi)
  onBus := by simp [PollLoop.received]
  onBoards := by
    intro item hi
    rcases mem_inFlight_received hs.table hi with ⟨_, hi⟩ | hi
    · exact hs.onBoards item hi
    · exact hs.onBus cycle hr item hi
  due := by simp [PollLoop.received]

theorem Coherent.failed (hs : s.Coherent) : (s.failed cycle).Coherent where
  table := hs.table
  newest := newestInFlight_failed.trans hs.newest
  floor := hs.floor
  queued := fun item hi => hs.queued item (by rwa [items_failed] at hi)
  onBus := by simp [PollLoop.failed]
  onBoards := hs.onBoards
  due := by simp [PollLoop.failed]

theorem Coherent.step (hs : s.Coherent) (h : s.step? action = some s') : s'.Coherent := by
  rcases step?_cases h with ⟨item, _, he, rfl⟩ | ⟨now, clock, _, hc, rfl⟩ | ⟨now, _, _, rfl⟩ |
    ⟨cycle, rx, _, hr, rfl⟩ | ⟨cycle, error, _, hr, rfl⟩
  · exact hs.append he
  · exact hs.refresh hc now
  · exact hs.begin now
  · exact hs.received hr rx
  · exact hs.failed

theorem Coherent.run (hs : s.Coherent) (h : s.run? actions = some s') : s'.Coherent :=
  run?_preserves (P := Coherent) (fun {_ _ _} (_ : True) hstep hs => hs.step hstep)
    (fun _ _ => trivial) h hs

/-! ## After a hard refresh -/

/-- Nothing in the queue is from before `epoch`. Unless a flush is due, nothing on the bus is either, and
what is in flight from before `epoch` goes when the cycle on the bus ends. -/
structure Purged (epoch : UInt64) (s : PollLoop) : Prop where
  current : s.clock.current = epoch
  queued : ∀ item ∈ s.queue.items.toList, epoch ≤ item.epoch
  onBus : s.queue.needFlush = false →
    ∀ cycle, s.running = some cycle → ∀ item ∈ cycle.sent, epoch ≤ item.epoch
  onBoards : s.queue.needFlush = false →
    (∃ cycle, s.running = some cycle ∧ cycle.flushing = true) ∨ ∀ item ∈ s.inFlight, epoch ≤ item.epoch

variable {epoch : UInt64}

theorem Purged.append (hs : s.Purged epoch) {item : Item} (he : item.epoch = s.clock.current) :
    (s.append item).Purged epoch where
  current := hs.current
  queued := by
    intro other ho
    rcases WorkQueue.mem_append ho with ho | rfl
    · exact hs.queued other ho
    · exact UInt64.le_of_eq (hs.current.symm.trans he.symm)
  onBus := fun hn => hs.onBus (by simpa [PollLoop.append] using hn)
  onBoards := fun hn => hs.onBoards (by simpa [PollLoop.append] using hn)

/-- The flush that was due, if one was, is part of the cycle. -/
theorem Purged.begin (hs : s.Purged epoch) (hr : s.running = none) (now : Instant) :
    (s.begin now).Purged epoch where
  current := hs.current
  queued := fun item hi => hs.queued item (mem_queue_begin hi)
  onBus := fun _ cycle hr item hi => hs.queued item (mem_sent_begin hr hi)
  onBoards := by
    intro _
    cases hn : s.queue.needFlush with
    | true => exact Or.inl ⟨_, running_begin s now, hn⟩
    | false =>
        rcases hs.onBoards hn with ⟨cycle, hr', _⟩ | hlive
        · simp [hr] at hr'
        · exact Or.inr hlive

theorem Purged.mem_inFlight_received (hs : s.Purged epoch) (ht : s.poller.table.Sound)
    (hr : s.running = some cycle) (hn : s.queue.needFlush = false) {rx item}
    (hi : item ∈ (s.received cycle rx).inFlight) : epoch ≤ item.epoch := by
  rcases PollLoop.mem_inFlight_received ht hi with ⟨hf, hi⟩ | hi
  · rcases hs.onBoards hn with ⟨cycle', hr', hf'⟩ | hlive
    · rw [hr, Option.some.injEq] at hr'
      simp [hr', hf'] at hf
    · exact hlive item hi
  · exact hs.onBus hn cycle hr item hi

theorem Purged.received (hs : s.Purged epoch) (ht : s.poller.table.Sound)
    (hr : s.running = some cycle) (rx : List UInt8) : (s.received cycle rx).Purged epoch where
  current := hs.current
  queued := fun item hi => hs.queued item (mem_queue_received hi)
  onBus := by simp [PollLoop.received]
  onBoards := by
    intro hn
    have hn : s.queue.needFlush = false := by simpa [PollLoop.received] using hn
    exact Or.inr fun item hi => hs.mem_inFlight_received ht hr hn hi

/-- A flush whose exchange failed is due again. -/
theorem Purged.failed (hs : s.Purged epoch) (hr : s.running = some cycle) :
    (s.failed cycle).Purged epoch where
  current := hs.current
  queued := fun item hi => hs.queued item (by rwa [items_failed] at hi)
  onBus := by simp [PollLoop.failed]
  onBoards := by
    intro hn
    cases hf : cycle.flushing with
    | true => simp [PollLoop.failed, hf, WorkQueue.armFlush] at hn
    | false =>
        rcases hs.onBoards (by simpa [PollLoop.failed, hf] using hn) with ⟨cycle', hr', hf'⟩ | hlive
        · rw [hr, Option.some.injEq] at hr'
          simp [hr', hf'] at hf
        · exact Or.inr hlive

theorem Purged.step (hs : s.Purged epoch) (hc : s.Coherent) (ha : action.refreshes = false)
    (h : s.step? action = some s') : s'.Purged epoch := by
  rcases step?_cases h with ⟨item, _, he, rfl⟩ | ⟨now, clock, rfl, _, _⟩ | ⟨now, _, hr, rfl⟩ |
    ⟨cycle, rx, _, hr, rfl⟩ | ⟨cycle, error, _, hr, rfl⟩
  · exact hs.append he
  · cases ha
  · exact hs.begin hr now
  · exact hs.received hc.table hr rx
  · exact hs.failed hr

theorem Purged.run (hs : s.Purged epoch) (hc : s.Coherent)
    (ha : ∀ action ∈ actions, action.refreshes = false) (h : s.run? actions = some s') :
    s'.Purged epoch :=
  (run?_preserves (P := fun s => s.Purged epoch ∧ s.Coherent)
    (fun ha hstep hs => ⟨hs.1.step hs.2 ha hstep, hs.2.step hstep⟩) ha h ⟨hs, hc⟩).1

/-- The loop right after a hard refresh, if no transfer with nothing else in flight is on the bus. -/
theorem Coherent.purged_refresh (hs : s.Coherent) {clock : EpochClock}
    (hc : s.clock.next? false = some clock) (now : Instant)
    (h : ∀ cycle, s.running = some cycle → s.inFlight = [] → cycle.sent = []) :
    (s.refresh clock now).Purged clock.current where
  current := rfl
  queued := by simp [PollLoop.refresh]
  onBus := by
    intro hn cycle hr item hi
    rw [hs.needFlush_refresh hc, Bool.or_eq_false_iff] at hn
    have hnil : s.inFlight = [] := by simpa using hn.2
    simp [h cycle hr hnil] at hi
  onBoards := by
    intro hn
    rw [hs.needFlush_refresh hc, Bool.or_eq_false_iff] at hn
    have hnil : (s.refresh clock now).inFlight = [] := by simpa [inFlight, PollLoop.refresh] using hn.2
    simp [hnil]

/-- Callers touch neither the table nor the cycle on the bus. -/
theorem run?_callers (ha : ∀ action ∈ actions, action.ofCaller = true)
    (h : s.run? actions = some s') : s'.poller = s.poller ∧ s'.running = s.running := by
  refine run?_preserves (P := fun t => t.poller = s.poller ∧ t.running = s.running) ?_ ha h ⟨rfl, rfl⟩
  intro t action t' ha ht hs
  rcases step?_cases ht with ⟨item, _, _, rfl⟩ | ⟨now, clock, _, _, rfl⟩ | ⟨now, rfl, _⟩ |
    ⟨cycle, rx, rfl, _⟩ | ⟨cycle, error, rfl, _⟩
  · exact hs
  · exact hs
  all_goals cases ha

/-! ## Which refreshes are lost -/

/-- The cycles behind `s` clear the boards of everything from before its epoch: whenever one that begins
before the next hard refresh ends with a reply, no such item is in flight. -/
def Clears (s : PollLoop) : Prop :=
  ∀ (before during : List Action) (now : Instant) (rx : List UInt8) (s' : PollLoop),
    (∀ action ∈ before, action.refreshes = false) →
    (∀ action ∈ during, action.ofCaller = true) →
    s.run? (before ++ .begin now :: during ++ [.finish (.received rx)]) = some s' →
    ∀ item ∈ s'.inFlight, s.clock.current ≤ item.epoch

theorem Purged.clears (hs : s.Purged s.clock.current) (hc : s.Coherent) : s.Clears := by
  intro before during now rx s' hb hd h item hi
  rw [run?_append, run?_append, Option.bind_eq_some_iff] at h
  obtain ⟨s₃, h₃, hend⟩ := h
  obtain ⟨s₁, h₁, h₂⟩ := Option.bind_eq_some_iff.mp h₃
  rw [run?_cons, Option.bind_eq_some_iff] at h₂
  obtain ⟨s₂, h₂, hcalls⟩ := h₂
  have hs₂ : s₂.Purged s.clock.current := (hs.run hc hb h₁).step (hc.run h₁) rfl h₂
  have hc₂ : s₂.Coherent := (hc.run h₁).step h₂
  have hn : s₂.queue.needFlush = false := by
    obtain ⟨_, rfl⟩ := step?_begin h₂
    rfl
  -- the end of the cycle finds the table and the cycle as the beginning left them
  obtain ⟨hp, hr⟩ := run?_callers hd hcalls
  obtain ⟨cycle, hr₃, ⟨rx', hx, rfl⟩ | ⟨_, hx, _⟩⟩ := finish?_cases (by simpa [run?_cons, step?] using hend)
  · have hsame : (s₃.received cycle rx').inFlight = (s₂.received cycle rx').inFlight := by
      simp only [inFlight, PollLoop.received, hp]
    exact hs₂.mem_inFlight_received hc₂.table (hr.symm.trans hr₃) hn (hsame ▸ hi)
  · cases hx

/-- A cycle without a flush whose reply accepts nothing leaves the boards as they are. -/
theorem run?_idle (hr : s.running = none) (hn : s.queue.needFlush = false) (now : Instant) :
    ∃ s', s.run? [.begin now, .finish (.received (receipt 0))] = some s' ∧ s'.inFlight = s.inFlight := by
  refine ⟨(s.begin now).received (s.poller.begin s.clock now s.queue).1 (receipt 0), ?_, ?_⟩
  · simp [run?_cons, step?, hr, finish?_received (running_begin s now)]
  · simp only [inFlight, PollLoop.received, tableAfter_receipt, Poller.begin_flushing, hn]
    rfl

/-- A transfer with nothing else in flight leaves the refresh lost: the boards accept its first item, and
the cycle behind it sends no flush. -/
theorem Coherent.not_clears (hs : s.Coherent) {clock : EpochClock}
    (hc : s.clock.next? false = some clock) (now : Instant) (hr : s.running = some cycle)
    (hnil : s.inFlight = []) (hsent : cycle.sent ≠ []) : ¬ (s.refresh clock now).Clears := by
  intro h
  obtain ⟨first, rest, hcons⟩ := List.exists_cons_of_ne_nil hsent
  let s₂ := (s.refresh clock now).received cycle (receipt 1)
  have hfirst : (s.refresh clock now).run? [.finish (.received (receipt 1))] = some s₂ := by
    simp [run?_cons, step?, s₂, finish?_received (s := s.refresh clock now) hr]
  have hlive : s₂.inFlight = [first] := by
    have ht : s.poller.table.live = [] := by simpa [inFlight] using hnil
    simp only [s₂, inFlight, PollLoop.received, PollLoop.refresh, tableAfter_receipt, hcons]
    cases cycle.flushing with
    | true => simp [Poller.insertAccepted, hs.table.clear.live_insertNext]
    | false => simp [Poller.insertAccepted, hs.table.live_insertNext, ht]
  have hn : s₂.queue.needFlush = false := by
    have hdue : s.queue.needFlush = false := by
      by_contra hdue
      exact hs.due (by simp [hr]) (by simpa using hdue) hnil
    simp [s₂, PollLoop.received, hs.needFlush_refresh hc, hdue, hnil]
  obtain ⟨s', hidle, hstay⟩ := run?_idle (s := s₂) rfl hn now
  have hrun : (s.refresh clock now).run? ([.finish (.received (receipt 1))] ++ .begin now :: [] ++
      [.finish (.received (receipt 0))]) = some s' := by
    rw [List.append_assoc, run?_append, hfirst]
    exact hidle
  have hfresh : clock.current ≤ first.epoch :=
    h _ [] now _ s' (by simp [Action.refreshes]) (by simp) hrun first (by simp [hstay, hlive])
  have hold : first.epoch ≤ s.clock.current := hs.onBus cycle hr first (by simp [hcons])
  have hlt := (EpochClock.next?_hard hc).1
  exact absurd (UInt64.le_trans hfresh hold) (UInt64.not_le.mpr hlt)

/-- A hard refresh is kept if and only if it does not meet a transfer of items with nothing else in
flight. -/
theorem clears_iff {device : String} {cores : CoreMap} {interval : Nat} {now : Instant}
    (h : (start device cores interval epoch).run? actions = some s)
    (hr : s.step? (.refresh now) = some s') :
    s'.Clears ↔ ∀ cycle, s.running = some cycle → s.inFlight = [] → cycle.sent = [] := by
  have hs := (coherent_start device cores interval epoch).run h
  obtain ⟨clock, hc, rfl⟩ := Option.map_eq_some_iff.mp hr
  constructor
  · intro hclears cycle hrun hnil
    by_contra hsent
    exact hs.not_clears hc now hrun hnil hsent hclears
  · intro hfree
    exact (hs.purged_refresh hc now hfree).clears (hs.refresh hc now)

private theorem run?_early :
    ∃ cycle s, (start "knc0" .empty Wire.pollIntervalMicros 1).run? [.enqueue early, .begin 0] = some s ∧
      s.running = some cycle ∧ cycle.sent = [early] ∧ s.inFlight = [] ∧
      s.step? (.refresh 0) = some (s.refresh ⟨2, 2⟩ 0) := by
  let s₁ := (start "knc0" .empty Wire.pollIntervalMicros 1).append early
  refine ⟨(s₁.poller.begin s₁.clock 0 s₁.queue).1, s₁.begin 0, rfl, rfl, ?_, ?_, rfl⟩
  · rw [Poller.begin_sent]
    rfl
  · simp [s₁, start, PollLoop.append, PollLoop.begin, inFlight, Poller.start]

theorem clears_iff_early : ∃ s s',
    (start "knc0" .empty Wire.pollIntervalMicros 1).run? [.enqueue early, .begin 0] = some s ∧
      s.step? (.refresh 0) = some s' ∧
      (s'.Clears ↔ ∀ cycle, s.running = some cycle → s.inFlight = [] → cycle.sent = []) := by
  obtain ⟨_, s, hrun, _, _, _, hstep⟩ := run?_early
  exact ⟨s, _, hrun, hstep, clears_iff hrun hstep⟩

/-- A refresh that meets the first transfer of an idle device is lost. -/
theorem not_clears_early : ∃ s s',
    (start "knc0" .empty Wire.pollIntervalMicros 1).run? [.enqueue early, .begin 0] = some s ∧
      s.step? (.refresh 0) = some s' ∧ ¬ s'.Clears := by
  obtain ⟨cycle, s, hrun, hr, hsent, hnil, hstep⟩ := run?_early
  have hs := (coherent_start "knc0" .empty Wire.pollIntervalMicros 1).run hrun
  obtain ⟨clock, hc, hs'⟩ := Option.map_eq_some_iff.mp hstep
  refine ⟨s, _, hrun, hstep, ?_⟩
  rw [← hs']
  exact hs.not_clears hc 0 hr hnil (by simp [hsent])

end PollLoop

end Hashboard
