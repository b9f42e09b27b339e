import Hashboard.Proofs.Refresh
import Hashboard.Proofs.Traffic

/-!
# Soft refreshes

A soft refresh begins a new epoch but leaves the floor of the clock where it was. If all refreshes are soft,
no item is ever below the floor, so no flush falls due and none is sent. What is in flight stays there until
its search ends or its id comes round.
-/

namespace Hashboard

namespace Frame

theorem request_framesFrom {table : InFlight} {place : Nat} {items : List Item} :
    ∀ frame ∈ Poller.framesFrom table place items, request frame = Wire.submitRequest := by
  induction items generalizing place with
  | nil => simp [Poller.framesFrom]
  | cons item rest ih =>
      intro frame hf
      rcases List.mem_cons.mp hf with rfl | hf
      · exact request_submission _ _
      · exact ih frame hf

end Frame

theorem Poller.request_begin (p : Poller) (clock : EpochClock) (now : Instant) {q : WorkQueue}
    (h : q.needFlush = false) :
    ∀ frame ∈ Simulator.frames (p.begin clock now q).1.buffers.tx,
      Frame.request frame ≠ Wire.flushRequest := by
  obtain ⟨filler, hfiller, hframes⟩ := p.begin_frames clock now q
  intro frame hf
  rw [hframes, h, flushFrames, if_neg (by decide), List.nil_append, List.mem_append] at hf
  rcases hf with hf | hf
  · rw [Frame.request_framesFrom frame hf]
    decide
  · obtain ⟨k, rfl⟩ := hfiller frame hf
    rw [Frame.request_filler]
    decide

theorem Poller.dropped_notMem_finishReceived (p : Poller) {cycle : PollCycle} (rx : List UInt8) (q : WorkQueue)
    (h : cycle.flushing = false) (name : String) (count : Nat) :
    .dropped name count ∉ (p.finishReceived cycle rx (.sound q)).notices := by
  simp only [finishReceived, h, Bool.false_eq_true, if_false, List.append_nil, List.mem_append,
    List.mem_singleton, List.mem_map]
  intro hm
  rcases hm with ((ho | ⟨_, _, hd⟩) | hreceipt) | ⟨_, _, hreissued⟩
  · split at ho
    · cases List.mem_singleton.mp ho
    · cases ho
  · cases hd
  · cases hreceipt
  · cases hreissued

namespace PollLoop

variable {s s' : PollLoop} {move : Move} {epoch : UInt64} {past : List (Step Move)} {cycle : PollCycle}
  {c : Call} {rx : List UInt8}

/-- What callers do while all refreshes are soft: they offer items of this epoch or later, and keep the work
in flight when they set the clock. -/
def Move.Soft (epoch : UInt64) : Move → Prop
  | .call (.append item) => epoch ≤ item.epoch
  | .call (.advance _ keepInFlight) => keepInFlight = true
  | .call .armFlush => False
  | .call .prune | .call (.flush _) | .begin _ | .finish _ => True

/-! ## Nothing is below the floor -/

/-- All work is from this epoch or later, no work counts as stale before it, and no flush is on its way. -/
structure Unhurried (epoch : UInt64) (s : PollLoop) : Prop where
  floor : s.clock.floor = epoch
  calm : s.queue.needFlush = false
  begun : ∀ cycle, s.running = some cycle →
    ∃ clock now queue, queue.needFlush = false ∧ cycle = (s.poller.begin clock now queue).1
  table : s.poller.table.Sound
  queued : ∀ item ∈ s.queue.items.toList, epoch ≤ item.epoch
  onBus : ∀ cycle, s.running = some cycle → ∀ item ∈ cycle.sent, epoch ≤ item.epoch
  onBoards : ∀ item ∈ s.inFlight, epoch ≤ item.epoch
  newest : ∀ item, s.queue.newestInFlight = some item → epoch ≤ item.epoch

theorem unhurried_start (device : String) (cores : CoreMap) (interval : Nat) (epoch : UInt64) :
    (start device cores interval epoch).Unhurried epoch where
  floor := rfl
  calm := rfl
  begun := by simp [start]
  table := InFlight.sound_empty
  queued := by simp [start, WorkQueue.empty]
  onBus := by simp [start]
  onBoards := by simp [start, inFlight, Poller.start]
  newest := by simp [start, WorkQueue.empty]

theorem Unhurried.flushing_eq (hs : s.Unhurried epoch) (hr : s.running = some cycle) :
    cycle.flushing = false := by
  obtain ⟨clock, now, queue, hcalm, rfl⟩ := hs.begun cycle hr
  exact hcalm

theorem Unhurried.inFlightIsStale_eq (hs : s.Unhurried epoch) :
    s.queue.inFlightIsStale s.clock = false := by
  unfold WorkQueue.inFlightIsStale
  cases hn : s.queue.newestInFlight with
  | none => rfl
  | some item =>
      rw [Option.any_some, EpochClock.isStale_eq_false, EpochClock.threshold, hs.floor]
      exact hs.newest item hn

theorem mem_queue_call {item : Item} (h : item ∈ (s.call c).queue.items.toList) :
    item ∈ s.queue.items.toList ∨ c = .append item := by
  cases c with
  | append other =>
      rcases WorkQueue.mem_append h with h | rfl
      · exact Or.inl h
      · exact Or.inr rfl
  | prune =>
      rw [call, WorkQueue.items_prune] at h
      exact Or.inl (WorkQueue.mem_of_mem_freshOf h)
  | flush now => simp [call] at h
  | armFlush => exact Or.inl h
  | advance epoch keepInFlight => exact Or.inl h

theorem floor_call (hc : Move.Soft epoch (.call c)) : (s.call c).clock.floor = s.clock.floor := by
  cases c with
  | advance next keepInFlight =>
      obtain rfl : keepInFlight = true := hc
      rfl
  | append item => rfl
  | prune => rfl
  | flush now => rfl
  | armFlush => rfl

theorem Unhurried.needFlush_call (hs : s.Unhurried epoch) (hc : Move.Soft epoch (.call c)) :
    (s.call c).queue.needFlush = false := by
  cases c with
  | append item => exact WorkQueue.needFlush_append.trans hs.calm
  | prune => exact hs.calm
  | flush now => rw [call, WorkQueue.needFlush_flush, hs.calm, hs.inFlightIsStale_eq, Bool.or_false]
  | armFlush => cases hc
  | advance next keepInFlight => exact hs.calm

theorem Unhurried.call (hs : s.Unhurried epoch) (hc : Move.Soft epoch (.call c)) :
    (s.call c).Unhurried epoch where
  floor := (floor_call hc).trans hs.floor
  calm := hs.needFlush_call hc
  begun := by simpa using hs.begun
  table := by simpa using hs.table
  queued := by
    intro item hi
    rcases mem_queue_call hi with hi | rfl
    · exact hs.queued item hi
    · exact hc
  onBus := by simpa using hs.onBus
  onBoards := by simpa using hs.onBoards
  newest := by simpa using hs.newest

theorem Unhurried.begin (hs : s.Unhurried epoch) (now : Instant) : (s.begin now).Unhurried epoch where
  floor := hs.floor
  calm := rfl
  begun := fun _ hr => ⟨s.clock, now, s.queue, hs.calm, (Option.some.inj hr).symm⟩
  table := hs.table
  queued := fun item hi => hs.queued item (mem_queue_begin hi)
  onBus := fun _ hr item hi => hs.queued item (mem_sent_begin hr hi)
  onBoards := hs.onBoards
  newest := hs.newest

theorem Unhurried.onBoards_received (hs : s.Unhurried epoch) (hr : s.running = some cycle) {item : Item}
    (hi : item ∈ (s.received cycle rx).inFlight) : epoch ≤ item.epoch := by
  rcases mem_inFlight_received hs.table hi with ⟨_, hi⟩ | hi
  · exact hs.onBoards item hi
  · exact hs.onBus cycle hr item hi

theorem Unhurried.received (hs : s.Unhurried epoch) (hr : s.running = some cycle) (rx : List UInt8) :
    (s.received cycle rx).Unhurried epoch where
  floor := hs.floor
  calm := Poller.needFlush_queueAfter.trans hs.calm
  begun := by simp [PollLoop.received]
  table := Poller.sound_tableAfter hs.table
  queued := fun item hi => hs.queued item (mem_queue_received hi)
  onBus := by simp [PollLoop.received]
  onBoards := fun _ hi => hs.onBoards_received hr hi
  newest := by
    -- the queue is told the newest item of the table that the cycle leaves
    intro item hn
    have hsound : (s.received cycle rx).poller.table.Sound := Poller.sound_tableAfter hs.table
    have hlast : (s.received cycle rx).inFlight.getLast? = some item := by
      rw [inFlight, List.getLast?_map, ← hsound.newest?_eq]
      exact Poller.newestInFlight_queueAfter.symm.trans hn
    exact hs.onBoards_received hr (List.mem_of_getLast? hlast)

theorem Unhurried.failed (hs : s.Unhurried epoch) (hr : s.running = some cycle) :
    (s.failed cycle).Unhurried epoch where
  floor := hs.floor
  calm := by
    rw [PollLoop.failed, hs.flushing_eq hr, if_neg (by decide)]
    exact hs.calm
  begun := by simp [PollLoop.failed]
  table := hs.table
  queued := fun item hi => hs.queued item (by rwa [items_failed] at hi)
  onBus := by simp [PollLoop.failed]
  onBoards := hs.onBoards
  newest := fun item hn => hs.newest item (by rwa [newestInFlight_failed] at hn)

theorem Unhurried.step (hs : s.Unhurried epoch) (hm : move.Soft epoch) (h : s.move? move = some s') :
    s'.Unhurried epoch := by
  rcases move?_cases h with ⟨c, rfl, rfl⟩ | ⟨now, rfl, _, rfl⟩ | ⟨cycle, rx, rfl, hr, rfl⟩ |
    ⟨cycle, error, rfl, hr, rfl⟩
  · exact hs.call hm
  · exact hs.begin now
  · exact hs.received hr rx
  · exact hs.failed hr

theorem Reached.unhurried {s₀ : PollLoop} (h : Reached move? s₀ past s)
    (hsoft : ∀ step ∈ past, step.action.Soft epoch) (hs : s₀.Unhurried epoch) : s.Unhurried epoch := by
  induction h with
  | start => exact hs
  | @step past s move s' _ hstep ih =>
      have hbefore := ih fun step hm => hsoft step (List.mem_append_left _ hm)
      exact hbefore.step (hsoft ⟨s, move, s'⟩ (by simp)) hstep

/-! ## What happens to the table -/

theorem Unhurried.sent_length (hs : s.Unhurried epoch) (hr : s.running = some cycle) :
    cycle.sent.length ≤ Wire.idSpace := by
  obtain ⟨clock, now, queue, _, rfl⟩ := hs.begun cycle hr
  exact Poller.begin_sent_fits s.poller clock now queue

theorem Unhurried.cleared_eq (hs : s.Unhurried epoch) (hr : s.running = some cycle) :
    cycle.cleared s.poller.table rx = s.poller.table.retireAll (Reply.records rx) := by
  rw [PollCycle.cleared, hs.flushing_eq hr]
  rfl

/-- An entry leaves the table if its search has ended or its id comes round. -/
theorem Unhurried.get?_step (hs : s.Unhurried epoch) (h : s.move? move = some s') {id : UInt16} {item : Item}
    (hg : s.poller.table.get? id = some item) :
    s'.poller.table.get? id = some item ∨ ∃ cycle rx, move = .finish (.received rx) ∧
      s.running = some cycle ∧ ((∃ r ∈ Reply.records rx, r.kind = .done ∧ r.id = id) ∨
        ∃ k, k < (cycle.taken rx).length ∧ s.poller.table.idAt k = id) := by
  rcases move?_cases h with ⟨c, rfl, rfl⟩ | ⟨now, rfl, _, rfl⟩ | ⟨cycle, rx, rfl, hr, rfl⟩ |
    ⟨cycle, error, rfl, _, rfl⟩
  · rw [poller_call]
    exact Or.inl hg
  · exact Or.inl hg
  · have hlen : (cycle.taken rx).length ≤ Wire.idSpace :=
      Nat.le_trans PollCycle.taken_length (hs.sent_length hr)
    rcases Poller.get?_tableAfter_cases hs.table hlen hg with hg' | hends | hf | hround
    · exact Or.inl hg'
    · exact Or.inr ⟨cycle, rx, rfl, hr, Or.inl hends⟩
    · rw [hs.flushing_eq hr] at hf
      cases hf
    · exact Or.inr ⟨cycle, rx, rfl, hr, Or.inr hround⟩
  · exact Or.inl hg

/-- While all refreshes are soft, work in flight is never abandoned, however calls and cycles interleave. -/
theorem soft_refreshes {device : String} {cores : CoreMap} {interval : Nat}
    (h : Reached move? (start device cores interval epoch) past s)
    (hsoft : ∀ step ∈ past, step.action.Soft epoch) :
    (∀ now, (s.queue.flush s.clock now).1 = false) ∧ s.queue.needFlush = false ∧
    (∀ cycle, s.running = some cycle →
      (∀ frame ∈ Simulator.frames cycle.buffers.tx, Frame.request frame ≠ Wire.flushRequest) ∧
      ∀ rx, ∃ finished outcome, s.poller.finish cycle (.sound s.queue) (.received rx) = some finished ∧
        finished.result = .ok outcome ∧ outcome.flushed = false ∧
        (∀ name count, .dropped name count ∉ finished.notices) ∧
        finished.poller.table = (Poller.insertAccepted
          (s.poller.table.retireAll (Reply.records rx)) (cycle.taken rx)).2) ∧
    (∀ move s', s.move? move = some s' → ∀ id item, s.poller.table.get? id = some item →
      s'.poller.table.get? id = some item ∨ ∃ cycle rx, move = .finish (.received rx) ∧
        s.running = some cycle ∧ ((∃ r ∈ Reply.records rx, r.kind = .done ∧ r.id = id) ∨
          ∃ k, k < (cycle.taken rx).length ∧ s.poller.table.idAt k = id)) := by
  have hs : s.Unhurried epoch := h.unhurried hsoft (unhurried_start _ _ _ _)
  refine ⟨fun _ => hs.inFlightIsStale_eq, hs.calm, ?_, fun _ _ hstep _ _ hg => hs.get?_step hstep hg⟩
  intro cycle hr
  constructor
  · obtain ⟨clock, now, queue, hcalm, rfl⟩ := hs.begun cycle hr
    exact s.poller.request_begin clock now hcalm
  · intro rx
    have hplain : cycle.flushing = false := hs.flushing_eq hr
    refine ⟨_, _, rfl, rfl, hplain, ?_, ?_⟩
    · exact s.poller.dropped_notMem_finishReceived rx s.queue hplain
    · rw [Poller.finishReceived_poller, Poller.tableAfter, hs.cleared_eq hr]

/-- A soft refresh that meets the transfer of an item. -/
theorem soft_refreshes_early :
    let s₀ := start "knc0" .empty Wire.pollIntervalMicros 1
    let s₁ := s₀.append early
    let s₂ := (s₁.begin 0).call (.advance 2 true)
    let s₃ := s₂.call (.flush 0)
    let s₄ := s₃.received (s₁.cycle 0) (receipt 1)
    (∃ past, Reached move? s₀ past s₄ ∧ ∀ step ∈ past, step.action.Soft 1) ∧
      s₄.clock.current = 2 ∧ s₄.inFlight = [early] ∧
      (s₄.queue.flush s₄.clock 0).1 = false ∧ s₄.queue.needFlush = false := by
  intro s₀ s₁ s₂ s₃ s₄
  have happend : s₀.move? (.call (.append early)) = some s₁ := rfl
  have hbegin : s₁.move? (.begin 0) = some (s₁.begin 0) := rfl
  have hadvance : (s₁.begin 0).move? (.call (.advance 2 true)) = some s₂ := rfl
  have hflush : s₂.move? (.call (.flush 0)) = some s₃ := rfl
  have hreply : s₃.move? (.finish (.received (receipt 1))) = some s₄ := finish?_received rfl _
  have h := ((((Reached.start.step happend).step hbegin).step hadvance).step hflush).step hreply
  have hepoch : 1 ≤ early.epoch := UInt64.le_refl 1
  have hlive : s₄.inFlight = [early] := by
    have hsent : (s₁.cycle 0).sent = [early] := by
      rw [cycle, Poller.begin_sent]
      rfl
    have hcalm : (s₁.cycle 0).flushing = false := rfl
    have hone : [early].take (1 : UInt16).toNat = [early] := rfl
    have hempty : s₃.poller.table = .empty := rfl
    have htable : s₄.poller.table = (InFlight.empty.insertNext early).2.2 := by
      simp only [s₄, received, tableAfter_receipt, hsent, hcalm, hone, hempty, Bool.false_eq_true, if_false,
        Poller.insertAccepted]
    rw [inFlight, htable, InFlight.sound_empty.live_insertNext, InFlight.live_empty]
    rfl
  refine ⟨⟨_, h, ?_⟩, rfl, hlive, ?_⟩
  · simp [Move.Soft, hepoch]
  · obtain ⟨hcalm, hunarmed, _⟩ := soft_refreshes h (by simp [Move.Soft, hepoch])
    exact ⟨hcalm 0, hunarmed⟩

end PollLoop

end Hashboard
