import Hashboard.Proofs.PollLoop
import Hashboard.Proofs.Tracking

/-!
# Queued work drains

Polled again and again, with nothing else happening, boards that have a place and finish at least one item in
each cycle come to the end of their work. Items that are in flight or wait are outstanding; each of them has its
id, or the id that it will get. A cycle takes some from the front and reports them, and leaves the others as
they are. From the second cycle on the boards are not idle unless nothing is outstanding.
-/

namespace Hashboard

/-! ## Ids for the items that wait -/

namespace InFlight

variable {t t' : InFlight} {items front behind : List Item}

/-- The items with the ids that they get if they enter one after the other. -/
def numbered (t : InFlight) (items : List Item) : List (UInt16 × Item) :=
  ((List.range items.length).map t.idAt).zip items

theorem numbered_length : (t.numbered items).length = items.length := by
  simp [numbered]

theorem numbered_append (h : ∀ k, t'.idAt k = t.idAt (front.length + k)) :
    t.numbered (front ++ behind) = t.numbered front ++ t'.numbered behind := by
  have hids : (List.range behind.length).map t'.idAt =
      ((List.range behind.length).map (front.length + ·)).map t.idAt := by
    rw [List.map_map]
    exact List.map_congr_left fun k _ => h k
  rw [numbered, numbered, numbered, List.length_append, List.range_add, List.map_append, hids,
    List.zip_append (by simp)]

theorem numbered_empty (h : items.length ≤ Wire.idSpace) :
    empty.numbered items = items.mapIdx fun k item => (UInt16.ofNat k, item) := by
  have hid : ∀ k, k < Wire.idSpace → empty.idAt k = UInt16.ofNat k := by
    intro k hk
    rw [← UInt16.toNat_inj, idAt_toNat]
    simp only [empty, Wire.idSpace] at hk ⊢
    rw [UInt16.toNat_ofNat_of_lt' (by simp only [UInt16.size]; omega)]
    simp only [UInt16.toNat_zero]
    omega
  refine List.ext_getElem (by simp [numbered_length]) ?_
  intro k hk _
  rw [numbered_length] at hk
  simp [numbered, hid k (by omega)]

end InFlight

theorem Poller.idAt_insertAccepted {t : InFlight} (items : List Item) (k : Nat) :
    (Poller.insertAccepted t items).2.idAt k = t.idAt (items.length + k) := by
  induction items generalizing t with
  | nil => rw [List.length_nil, Nat.zero_add]; rfl
  | cons item rest ih =>
      rw [Poller.insertAccepted_cons, ih, InFlight.idAt_insertNext, List.length_cons]
      congr 1
      omega

namespace Station

/-! ## Outstanding work -/

section Reports

variable {β : Type} [Bus β]

/-- What a cycle begun now reports. -/
def events (s : Station β) (now : Instant) : List Event :=
  (s.finished? now).elim [] PollFinished.events

/-- What cycles begun at these times report. -/
def reported (s : Station β) : List Instant → List Event
  | [] => []
  | now :: nows => s.events now ++ (s.poll now).reported nows

end Reports

variable {boards : List (UInt8 × List UInt8)} {settings : SimulatorSettings} {s : Station Simulator}
  {now : Instant}

/-- The items in flight and the items that wait, oldest first. -/
def outstanding (s : Station Simulator) : List (UInt16 × Item) :=
  s.poller.table.live ++ s.poller.table.numbered s.queue.items.toList

/-- Nothing is stale, no flush is due, and there are ids for all outstanding items. -/
structure Draining (boards : List (UInt8 × List UInt8)) (settings : SimulatorSettings)
    (s : Station Simulator) : Prop extends s.Tracking boards settings where
  fresh : ∀ item ∈ s.queue.items.toList, s.clock.isStale .relaxed item = false
  calm : s.queue.needFlush = false
  few : s.outstanding.length ≤ Wire.idSpace

theorem Draining.items_rest (h : s.Draining boards settings) (now : Instant) :
    (s.rest now).items.toList = s.queue.items.toList := by
  rw [Station.items_rest, ← WorkQueue.items_prune, WorkQueue.items_prune_of_fresh h.fresh]

theorem Draining.queue_split (h : s.Draining boards settings) {rx : List UInt8}
    (htaken : (s.cycle now).taken rx = s.entering now) :
    s.queue.items.toList = s.entering now ++
      (s.poller.queueAfter (s.cycle now) rx (s.rest now)).items.toList := by
  rw [← htaken, ← rest_split, h.items_rest]

theorem Draining.room (h : s.Draining boards settings) (now : Instant) :
    (s.held now).length ≤ Wire.idSpace := by
  obtain ⟨rx, _, _, _, htaken, _⟩ := h.poll_eq now
  have hqueue := congrArg List.length (h.queue_split htaken)
  have hkept : s.bus.kept.length ≤ s.poller.table.live.length := by
    rw [h.kept_eq, List.length_map, staying, List.length_drop]
    omega
  have hfew := h.few
  rw [outstanding, List.length_append, InFlight.numbered_length] at hfew
  rw [List.length_append] at hqueue
  rw [held, List.length_append, List.length_map, List.length_range]
  split
  · rw [List.length_nil]
    omega
  · omega

theorem Draining.outstanding_split (h : s.Draining boards settings) (now : Instant) :
    s.outstanding = s.finishing ++ (s.poll now).outstanding := by
  obtain ⟨rx, _, hrx, _, htaken, hpoll⟩ := h.poll_eq now
  obtain ⟨_, hlive, _⟩ := h.insertAccepted hrx htaken (h.room now)
  have hcalm : (s.cycle now).flushing = false := h.calm
  have hids : ∀ k, (s.poller.tableAfter (s.cycle now) rx).idAt k =
      s.poller.table.idAt ((s.entering now).length + k) := by
    intro k
    rw [Poller.tableAfter, Poller.idAt_insertAccepted, PollCycle.idAt_cleared, htaken]
  rw [hcalm, if_neg (by decide)] at hlive
  calc s.outstanding
      = s.finishing ++ s.staying ++ (s.poller.table.numbered (s.entering now) ++
          (s.poller.tableAfter (s.cycle now) rx).numbered
            (s.poller.queueAfter (s.cycle now) rx (s.rest now)).items.toList) := by
        rw [outstanding, h.queue_split htaken, InFlight.numbered_append hids, ← live_split]
    _ = s.finishing ++ ((s.poller.tableAfter (s.cycle now) rx).live ++
          (s.poller.tableAfter (s.cycle now) rx).numbered
            (s.poller.queueAfter (s.cycle now) rx (s.rest now)).items.toList) := by
        rw [hlive]
        simp only [List.append_assoc]
        rfl
    _ = s.finishing ++ (s.poll now).outstanding := by
        rw [hpoll]
        rfl

theorem Draining.events_eq (h : s.Draining boards settings) (now : Instant) :
    s.events now = s.finishing.flatMap settings.reportsFor := by
  obtain ⟨rx, hanswer, hrx, _, _, _⟩ := h.poll_eq now
  obtain ⟨_, hevents, _⟩ := h.dispatched
  rw [events, finished?_received hanswer, Option.elim_some, Poller.finishReceived_events, hrx, hevents]

theorem Draining.poll (h : s.Draining boards settings) (now : Instant) :
    (s.poll now).Draining boards settings := by
  obtain ⟨rx, _, _, _, htaken, hpoll⟩ := h.poll_eq now
  refine ⟨h.toTracking.poll (h.room now), ?_, ?_, ?_⟩
  · rw [hpoll]
    intro item hi
    refine h.fresh item ?_
    rw [h.queue_split htaken]
    exact List.mem_append_right _ hi
  · rw [hpoll]
    exact Poller.needFlush_queueAfter
  · have hfew := h.few
    rw [h.outstanding_split now, List.length_append] at hfew
    omega

/-- Any number of cycles report some items from the front, and leave the others outstanding. -/
theorem Draining.run (h : s.Draining boards settings) (nows : List Instant) :
    let s' := s.run (nows.map .poll)
    s'.Draining boards settings ∧
      s.outstanding.flatMap settings.reportsFor =
        s.reported nows ++ s'.outstanding.flatMap settings.reportsFor := by
  induction nows generalizing s with
  | nil => exact ⟨h, rfl⟩
  | cons now nows ih =>
      obtain ⟨hend, hrest⟩ := ih (h.poll now)
      refine ⟨hend, ?_⟩
      rw [h.outstanding_split now, List.flatMap_append, hrest, ← h.events_eq now, reported,
        List.append_assoc]
      rfl

/-! ## Progress -/

/-- If the boards are idle, nothing waits. -/
def Occupied (s : Station Simulator) : Prop :=
  s.bus.pending = [] → s.queue.items.toList = []

/-- Boards with a place for an item take one if any waits. -/
theorem Draining.occupied_poll (h : s.Draining boards settings) (hdepth : 0 < settings.queueDepth.toNat)
    (now : Instant) : (s.poll now).Occupied := by
  obtain ⟨rx, _, _, _, htaken, hpoll⟩ := h.poll_eq now
  have hcalm : (s.cycle now).flushing = false := h.calm
  intro hidle
  rw [hpoll] at hidle ⊢
  obtain ⟨hkept, hnone⟩ := List.append_eq_nil_iff.mp hidle
  rw [hcalm, if_neg (by decide)] at hkept
  have hroom : s.bus.room ≠ 0 := by
    rw [Simulator.room, hkept, h.configured, List.length_nil, Nat.sub_zero]
    exact Nat.ne_of_gt hdepth
  have hentering : s.entering now = [] := by
    rw [List.map_eq_nil_iff, List.range_eq_nil] at hnone
    exact List.length_eq_zero_iff.mp hnone
  have hsent : (s.cycle now).sent = [] := (List.take_eq_nil_iff.mp hentering).resolve_left hroom
  have hqueue : s.queue.items.toList = [] := by
    rw [cycle, Poller.begin_sent, ← WorkQueue.items_prune, WorkQueue.items_prune_of_fresh h.fresh,
      h.calm] at hsent
    exact (List.take_eq_nil_iff.mp hsent).resolve_left (by decide)
  rw [h.queue_split htaken] at hqueue
  exact (List.append_eq_nil_iff.mp hqueue).2

/-- Boards that are not idle finish an item. -/
theorem Draining.shrinks (h : s.Draining boards settings) (hbusy : s.Occupied)
    (hfinish : 0 < settings.completionsPerPoll) (now : Instant) :
    (s.poll now).outstanding.length ≤ s.outstanding.length - 1 := by
  have hsplit := congrArg List.length (h.outstanding_split now)
  rw [List.length_append] at hsplit
  cases hlive : s.poller.table.live with
  | nil =>
      -- idle boards: nothing waits either, so nothing is outstanding
      have hidle : s.bus.pending = [] := by rw [← h.live_ids, hlive, List.map_nil]
      have hnone : s.outstanding.length = 0 := by
        rw [outstanding, hlive, List.nil_append, InFlight.numbered_length, hbusy hidle, List.length_nil]
      omega
  | cons p rest =>
      have hone : 0 < s.finishing.length := by
        rw [finishing, hlive, h.configured, List.length_take, List.length_cons]
        omega
      omega

theorem Draining.drains (h : s.Draining boards settings) (hbusy : s.Occupied)
    (hdepth : 0 < settings.queueDepth.toNat) (hfinish : 0 < settings.completionsPerPoll)
    (nows : List Instant) :
    (s.run (nows.map .poll)).outstanding.length ≤ s.outstanding.length - nows.length := by
  -- every cycle leaves the boards occupied, so the next one finishes an item
  induction nows generalizing s with
  | nil => exact Nat.le_refl _
  | cons now nows ih =>
      have hone := h.shrinks hbusy hfinish now
      have hrest := ih (h.poll now) (h.occupied_poll hdepth now)
      rw [List.map_cons, run_cons, act_poll, List.length_cons]
      omega

/-- The first cycle finds the boards empty, and each one behind it finishes an item. -/
theorem Draining.outstanding_eq_nil (h : s.Draining boards settings) (hdepth : 0 < settings.queueDepth.toNat)
    (hfinish : 0 < settings.completionsPerPoll) {nows : List Instant}
    (hcycles : s.outstanding.length < nows.length) : (s.run (nows.map .poll)).outstanding = [] := by
  cases nows with
  | nil => exact absurd hcycles (Nat.not_lt_zero _)
  | cons now nows =>
      have hsplit := congrArg List.length (h.outstanding_split now)
      have hrest := (h.poll now).drains (h.occupied_poll hdepth now) hdepth hfinish nows
      rw [List.length_append] at hsplit
      rw [List.length_cons] at hcycles
      rw [List.map_cons, run_cons, act_poll]
      exact List.length_eq_zero_iff.mp (by omega)

theorem Draining.empty_of_outstanding (h : s.Draining boards settings) (hnone : s.outstanding = []) :
    s.queue.items = #[] ∧ s.poller.table.size = 0 ∧ s.bus.pending = [] := by
  obtain ⟨hlive, hwaiting⟩ := List.append_eq_nil_iff.mp hnone
  have hqueue := congrArg List.length hwaiting
  rw [InFlight.numbered_length, List.length_nil, Array.length_toList] at hqueue
  refine ⟨Array.eq_empty_of_size_eq_zero hqueue, ?_, ?_⟩
  · rw [h.table.size_eq, hlive, List.length_nil]
  · rw [← h.live_ids, hlive, List.map_nil]

/-- As many cycles as there are items waiting, and one more, bring fresh boards to the end of their work. They
report all items in the order of the queue, and nothing else. -/
theorem drained (h : Mounted boards settings) (hdepth : 0 < settings.queueDepth.toNat)
    (hfinish : 0 < settings.completionsPerPoll) :
    ∃ cores, CoreMap.empty.registerAll boards = .ok cores ∧
      ∀ device interval clock ops nows,
        let queue := WorkQueue.empty.applyAll ops
        let s : Station Simulator := ⟨clock, queue, .start device cores interval, .start settings⟩
        let s' := s.run (nows.map .poll)
        (∀ item ∈ queue.items.toList, clock.isStale .relaxed item = false) → queue.needFlush = false →
          queue.size ≤ queue.capacity → nows.length = queue.size + 1 →
            s'.queue.items = #[] ∧ s'.poller.table.size = 0 ∧ s'.bus.pending = [] ∧
              s.reported nows = (queue.items.toList.mapIdx fun k item => (UInt16.ofNat k, item)).flatMap
                settings.reportsFor := by
  obtain ⟨cores, hcores, hlaid⟩ := CoreMap.registerAll_laid h.asics
  refine ⟨cores, hcores, ?_⟩
  intro device interval clock ops nows queue s s' hfresh hcalm hsize hcycles
  have htracks : s.Tracking boards settings := (tracking_start h hlaid device interval 0).of_eq rfl rfl
  have houtstanding : s.outstanding = InFlight.empty.numbered queue.items.toList := by
    show InFlight.empty.live ++ _ = _
    rw [InFlight.live_empty, List.nil_append]
    rfl
  have hlength : s.outstanding.length = queue.size := by
    rw [houtstanding, InFlight.numbered_length, WorkQueue.size_eq]
  have hfew : queue.size ≤ Wire.idSpace := by
    have hcapacity : queue.capacity ≤ WorkQueue.maxCapacity :=
      WorkQueue.capacity_applyAll_le (by decide) ops
    have hhalf : WorkQueue.maxCapacity ≤ Wire.idSpace := by decide
    omega
  have hs : s.Draining boards settings := ⟨htracks, hfresh, hcalm, hlength ▸ hfew⟩
  obtain ⟨hend, hreports⟩ := hs.run nows
  have hnone : s'.outstanding = [] := hs.outstanding_eq_nil hdepth hfinish (by omega)
  obtain ⟨hqueue, htable, hboards⟩ := hend.empty_of_outstanding hnone
  refine ⟨hqueue, htable, hboards, ?_⟩
  rw [hnone, List.flatMap_nil, List.append_nil, houtstanding, InFlight.numbered_empty] at hreports
  · exact hreports.symm
  · rw [← WorkQueue.size_eq]
    exact hfew

/-- Two items and three cycles of the standard simulator. -/
theorem drained_pair :
    let first : Item := PollLoop.early
    let second : Item := { PollLoop.early with handle := 1 }
    let ops : List WorkQueue.Op :=
      [.observeAccepted 3, .append (.start 1) first, .append (.start 1) second]
    let nows : List Instant := [0, 1, 2]
    ∃ cores, CoreMap.empty.registerAll [(0, List.replicate Wire.coresPerBoard 3)] = .ok cores ∧
      let s : Station Simulator := ⟨.start 1, WorkQueue.empty.applyAll ops,
        .start "sim0" cores Wire.pollIntervalMicros, .start .standard⟩
      let s' := s.run (nows.map .poll)
      s'.queue.items = #[] ∧ s'.poller.table.size = 0 ∧ s'.bus.pending = [] ∧
        s.reported nows = [.nonce ⟨0⟩ first 0, .completed ⟨0⟩ Wire.hashesPerWork,
          .completed ⟨1⟩ Wire.hashesPerWork] := by
  intro first second ops nows
  have hitems : (WorkQueue.empty.applyAll ops).items.toList = [first, second] := rfl
  have hsize : (WorkQueue.empty.applyAll ops).size = 2 := rfl
  have hcapacity : (WorkQueue.empty.applyAll ops).capacity = 3 := rfl
  have hfresh : ∀ item ∈ (WorkQueue.empty.applyAll ops).items.toList,
      (EpochClock.start 1).isStale .relaxed item = false := by
    rw [hitems]
    intro item hi
    rcases List.mem_pair.mp hi with rfl | rfl <;> rfl
  obtain ⟨cores, hcores, hdrained⟩ := drained mounted_standard (by decide) (by decide)
  refine ⟨cores, hcores, ?_⟩
  obtain ⟨hqueue, htable, hboards, hreports⟩ :=
    hdrained "sim0" Wire.pollIntervalMicros (.start 1) ops nows hfresh rfl
      (by rw [hsize, hcapacity]; decide) (by rw [hsize]; rfl)
  refine ⟨hqueue, htable, hboards, hreports.trans ?_⟩
  rw [hitems]
  have hcount : SimulatorSettings.standard.coreCount = 192 := rfl
  have hevery : SimulatorSettings.standard.nonceEvery = 4 := rfl
  have hplain : ¬(1 : UInt16) % max 4 1 = 0 := by decide
  simp [SimulatorSettings.reportsFor, hcount, hevery, hplain]

end Station

end Hashboard
