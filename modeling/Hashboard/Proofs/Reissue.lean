import Hashboard.Rig
import Hashboard.Proofs.Tracking

/-!
# Ids that come round too early

The capacity of the queue stays within half of the id space, but what bounds the items in flight is the depth
of the boards alone. If the boards are deeper than there are ids, and finish fewer items in a cycle than fit
into a transaction, then they fill up cycle by cycle until an item is pushed out under its own id. With any
other settings that never happens (`reissues_iff`).
-/

namespace Hashboard

namespace Station

variable {boards : List (UInt8 × List UInt8)} {settings : SimulatorSettings} {s : Station Simulator}
  {now : Instant} {item : Item}

/-! ## Ids enough for all -/

/-- There are ids enough if the boards have no more places than there are ids, or finish all that a
transaction can bring. -/
theorem Tracking.room_of_fit (h : s.Tracking boards settings)
    (hfit : settings.queueDepth.toNat ≤ Wire.idSpace ∨
      Wire.framesPerTransaction ≤ settings.completionsPerPoll) (now : Instant) :
    (s.held now).length ≤ Wire.idSpace := by
  rcases hfit with hdepth | hwide
  · exact Nat.le_trans (h.length_held now) hdepth
  · exact Nat.le_trans (h.narrow_held hwide) (by decide)

theorem Tracking.run (h : s.Tracking boards settings)
    (hfit : settings.queueDepth.toNat ≤ Wire.idSpace ∨
      Wire.framesPerTransaction ≤ settings.completionsPerPoll) (acts : List Act) :
    (s.run acts).Tracking boards settings := by
  induction acts generalizing s with
  | nil => exact h
  | cons act acts ih => exact ih (h.act act fun now _ => h.room_of_fit hfit now)

theorem Tracking.displaced_eq (h : s.Tracking boards settings)
    (hroom : (s.held now).length ≤ Wire.idSpace) {finished : PollFinished}
    (hf : s.finished? now = some finished) : finished.displaced = 0 := by
  obtain ⟨rx, hanswer, hrx, _, htaken, _⟩ := h.poll_eq now
  rw [finished?_received hanswer, Option.some.injEq] at hf
  rw [← hf, Poller.displaced_eq, (h.insertAccepted hrx htaken hroom).1]
  rfl

/-! ## A queue that keeps the boards busy -/

/-- No waiting item is stale, no flush is due, and a whole transaction's worth of items may wait. -/
structure Feeding (s : Station Simulator) : Prop where
  fresh : ∀ item ∈ s.queue.items.toList, s.clock.isStale .relaxed item = false
  calm : s.queue.needFlush = false
  ample : Wire.framesPerTransaction ≤ s.queue.capacity

theorem Feeding.append (h : s.Feeding) (hi : s.clock.isStale .relaxed item = false) :
    (s.act (.append item)).Feeding ∧
      min s.queue.capacity (s.queue.size + 1) ≤ (s.act (.append item)).queue.size := by
  have hitems := WorkQueue.items_append_of_fresh h.fresh hi
  refine ⟨⟨?_, ?_, ?_⟩, ?_⟩
  · intro other ho
    rcases WorkQueue.mem_append ho with ho | rfl
    · exact h.fresh other ho
    · exact hi
  · exact WorkQueue.needFlush_append.trans h.calm
  · exact Nat.le_trans h.ample (Nat.le_of_eq WorkQueue.capacity_append.symm)
  · have hsize := congrArg List.length hitems
    rw [← WorkQueue.size_eq, List.length_append, ← WorkQueue.size_eq] at hsize
    show _ ≤ (s.queue.append s.clock item).2.size
    rw [hsize]
    split
    · rw [List.length_nil]
      omega
    · rw [List.length_singleton]
      omega

/-- Offers of an item, again and again, fill the queue. -/
theorem Feeding.appends (h : s.Feeding) (hi : s.clock.isStale .relaxed item = false) (n : Nat) :
    let s' := s.run (List.replicate n (.append item))
    s'.Feeding ∧ s'.poller = s.poller ∧ s'.bus = s.bus ∧
      min s.queue.capacity (s.queue.size + n) ≤ s'.queue.size := by
  induction n generalizing s with
  | zero => exact ⟨h, rfl, rfl, Nat.min_le_right _ _⟩
  | succ n ih =>
      obtain ⟨hnext, hone⟩ := h.append hi
      obtain ⟨hs, hpoller, hbus, hsize⟩ := ih hnext hi
      have hcapacity : (s.act (.append item)).queue.capacity = s.queue.capacity :=
        WorkQueue.capacity_append
      refine ⟨hs, hpoller, hbus, Nat.le_trans ?_ hsize⟩
      omega

/-- A cycle that begins with a full queue sends a whole transaction's worth of items. -/
theorem Feeding.sent_length (h : s.Feeding) (hsize : Wire.framesPerTransaction ≤ s.queue.size) :
    (s.cycle now).sent.length = Wire.framesPerTransaction := by
  have hall : WorkQueue.freshOf s.clock s.queue.items.toList = s.queue.items.toList :=
    WorkQueue.items_prune.symm.trans (WorkQueue.items_prune_of_fresh h.fresh)
  rw [cycle, Poller.begin_sent, hall, h.calm, List.length_take, ← WorkQueue.size_eq]
  exact Nat.min_eq_left hsize

/-- After a cycle, waiting items are fresh and no flush is due. -/
theorem Tracking.feeding_poll (h : s.Tracking boards settings)
    (hample : Wire.framesPerTransaction ≤ (s.poll now).queue.capacity) : (s.poll now).Feeding := by
  obtain ⟨rx, _, _, _, _, hpoll⟩ := h.poll_eq now
  rw [hpoll] at hample ⊢
  refine ⟨?_, ?_, hample⟩
  · intro item hi
    simp only [Poller.items_queueAfter] at hi
    have hrest := WorkQueue.mem_foldl_erase hi
    rw [items_rest] at hrest
    exact EpochClock.isStale_eq_false.mpr (WorkQueue.current_le_of_mem_freshOf hrest)
  · exact Poller.needFlush_queueAfter

theorem Feeding.poll (h : s.Feeding) (ht : s.Tracking boards settings) : (s.poll now).Feeding := by
  refine ht.feeding_poll ?_
  obtain ⟨rx, _, _, _, _, hpoll⟩ := ht.poll_eq now
  have hgrown : (s.rest now).capacity ≤
      (s.poller.queueAfter (s.cycle now) rx (s.rest now)).capacity := Poller.le_capacity_queueAfter.1
  rw [hpoll]
  exact Nat.le_trans h.ample hgrown

/-! ## Boards that fill up -/

/-- A whole transaction's worth of items leaves the boards fuller, or pushes an item out: otherwise all items
have ids of their own, and there are not that many. -/
theorem Tracking.poll_grows (h : s.Tracking boards settings) (hcalm : s.queue.needFlush = false)
    (hdeep : Wire.idSpace < settings.queueDepth.toNat)
    (hslow : settings.completionsPerPoll < Wire.framesPerTransaction)
    (hsent : (s.cycle now).sent.length = Wire.framesPerTransaction) :
    (∃ finished, s.finished? now = some finished ∧ 0 < finished.displaced) ∨
      ((s.poll now).Tracking boards settings ∧
        s.bus.pending.length < (s.poll now).bus.pending.length) := by
  obtain ⟨rx, hanswer, hrx, _, htaken, hpoll⟩ := h.poll_eq now
  have hcleared : ((s.cycle now).cleared s.poller.table rx).Sound := PollCycle.sound_cleared h.table
  have hsize := Poller.size_insertAccepted hcleared ((s.cycle now).taken rx)
  cases hnone : (Poller.insertAccepted ((s.cycle now).cleared s.poller.table rx)
      ((s.cycle now).taken rx)).1 with
  | cons id rest =>
      refine Or.inl ⟨_, finished?_received hanswer, ?_⟩
      rw [Poller.displaced_eq, hnone]
      exact Nat.zero_lt_succ _
  | nil =>
      -- nothing was pushed out, so all that the boards hold is on the table, each item under its own id
      have hlength := h.length_cleared now hrx
      have hroom : (s.held now).length ≤ Wire.idSpace := by
        have hle := (Poller.sound_insertAccepted hcleared ((s.cycle now).taken rx)).size_le
        rw [hnone, List.length_nil, htaken, hcleared.size_eq, ← List.length_map Prod.fst,
          hcleared.live_ids] at hsize
        rw [htaken] at hle
        omega
      refine Or.inr ⟨h.poll hroom, ?_⟩
      have hkept : s.bus.kept.length = s.bus.pending.length - settings.completionsPerPoll := by
        rw [Simulator.kept, List.length_drop, h.configured]
      have hentering : (s.entering now).length =
          min (settings.queueDepth.toNat - s.bus.kept.length) Wire.framesPerTransaction := by
        rw [entering, List.length_take, hsent, Simulator.room, h.configured]
      have hheld : (s.held now).length = s.bus.kept.length + (s.entering now).length := by
        rw [held, List.length_append, List.length_map, List.length_range]
        have hflush : (s.cycle now).flushing = false := hcalm
        simp [hflush]
      rw [hpoll]
      show s.bus.pending.length < (s.held now).length
      omega

/-- An item of this epoch. -/
def blank (epoch : UInt64) : Item :=
  ⟨0, .replicate Wire.midstateLength 0, .replicate Wire.dataLength 0, epoch⟩

theorem isStale_blank (clock : EpochClock) : clock.isStale .relaxed (blank clock.current) = false :=
  EpochClock.isStale_eq_false.mpr (UInt64.le_refl _)

/-- The offers of a whole transaction's worth of items of this epoch. -/
def offers (epoch : UInt64) : List Act :=
  List.replicate Wire.framesPerTransaction (.append (blank epoch))

/-- The boards hold as much as one likes after some acts, unless an item is pushed out before. -/
theorem Tracking.fills (h : s.Tracking boards settings) (hf : s.Feeding)
    (hdeep : Wire.idSpace < settings.queueDepth.toNat)
    (hslow : settings.completionsPerPoll < Wire.framesPerTransaction) (n : Nat) :
    (∃ acts now finished, (s.run acts).finished? now = some finished ∧ 0 < finished.displaced) ∨
      ∃ acts, (s.run acts).Tracking boards settings ∧ (s.run acts).Feeding ∧
        n ≤ (s.run acts).bus.pending.length := by
  induction n with
  | zero => exact Or.inr ⟨[], h, hf, Nat.zero_le _⟩
  | succ n ih =>
      rcases ih with hreissue | ⟨acts, ht, hf, hn⟩
      · exact Or.inl hreissue
      · -- another round: a full queue, and a cycle that empties it
        obtain ⟨acts', hrun⟩ : ∃ acts', s.run acts' = (s.run acts).run (offers (s.run acts).clock.current) :=
          ⟨_, run_append⟩
        obtain ⟨hfull, hpoller, hbus, hsize⟩ :=
          hf.appends (isStale_blank _) Wire.framesPerTransaction
        have hample := hf.ample
        have hmany := Nat.le_trans (Nat.le_min.mpr ⟨hample, Nat.le_add_left _ _⟩) hsize
        rw [← offers, ← hrun] at hfull hpoller hbus hmany
        have htracks := ht.of_eq hpoller hbus
        have hsent : ((s.run acts').cycle 0).sent.length = Wire.framesPerTransaction :=
          hfull.sent_length hmany
        rcases htracks.poll_grows hfull.calm hdeep hslow hsent with ⟨finished, hend, hpos⟩ | ⟨hnext, hmore⟩
        · exact Or.inl ⟨acts', 0, finished, hend, hpos⟩
        · rw [hbus] at hmore
          have hup : n + 1 ≤ ((s.run acts').poll 0).bus.pending.length := Nat.lt_of_le_of_lt hn hmore
          refine Or.inr ⟨acts' ++ [.poll 0], ?_⟩
          rw [run_concat, act_poll]
          exact ⟨hnext, hfull.poll htracks, hup⟩

/-- So an item is pushed out in the end. -/
theorem Feeding.exists_displaced (hf : s.Feeding) (h : s.Tracking boards settings)
    (hdeep : Wire.idSpace < settings.queueDepth.toNat)
    (hslow : settings.completionsPerPoll < Wire.framesPerTransaction) :
    ∃ acts now finished, (s.run acts).finished? now = some finished ∧ 0 < finished.displaced := by
  rcases h.fills hf hdeep hslow (Wire.idSpace + 1) with hreissue | ⟨acts, ht, _, hn⟩
  · exact hreissue
  · have hfew := ht.row.few
    rw [ht.ids] at hfew
    omega

/-- A cycle that finds the boards empty and sends anything teaches the queue how deep they are. -/
theorem Tracking.learns (h : s.Tracking boards settings) (hdeep : Wire.idSpace < settings.queueDepth.toNat)
    (hempty : s.bus.pending = []) (hsent : (s.cycle now).sent ≠ []) :
    (s.poll now).Tracking boards settings ∧ (s.poll now).Feeding := by
  have hkept : s.bus.kept = [] := by rw [Simulator.kept, hempty, List.drop_nil]
  have hroom : (s.held now).length ≤ Wire.idSpace := by
    have hentering : (s.entering now).length ≤ (s.cycle now).sent.length := List.length_take_le' _ _
    rw [held, hkept, ite_self, List.nil_append, List.length_map, List.length_range]
    exact Nat.le_trans hentering (Poller.begin_sent_fits s.poller s.clock now s.queue)
  obtain ⟨rx, _, _, haccepted, _, hpoll⟩ := h.poll_eq now
  have hlearned : min (ReplyHeader.decode rx).accepted.toNat WorkQueue.maxCapacity ≤
      (s.poller.queueAfter (s.cycle now) rx (s.rest now)).capacity := Poller.le_capacity_queueAfter.2
  rw [if_neg hsent, Simulator.room, hkept, h.configured, List.length_nil, Nat.sub_zero] at haccepted
  rw [haccepted] at hlearned
  refine ⟨h.poll hroom, h.feeding_poll ?_⟩
  rw [hpoll]
  refine Nat.le_trans (Nat.le_min.mpr ⟨?_, ?_⟩) hlearned
  · exact Nat.le_of_lt (Nat.lt_trans (by decide) hdeep)
  · decide

/-- From the start, an item is pushed out in the end. -/
theorem exists_displaced (h : Mounted boards settings) (hdeep : Wire.idSpace < settings.queueDepth.toNat)
    (hslow : settings.completionsPerPoll < Wire.framesPerTransaction) {cores : CoreMap}
    (hcores : cores.Laid boards) (device : String) (interval : Nat) (epoch : UInt64) :
    let s := start device cores interval epoch (Simulator.start settings)
    ∃ acts now finished, (s.run acts).finished? now = some finished ∧ 0 < finished.displaced := by
  intro s
  obtain ⟨s₁, hs₁⟩ : ∃ s₁, s₁ = s.act (.append (blank epoch)) := ⟨_, rfl⟩
  have htracks : s₁.Tracking boards settings :=
    (tracking_start h hcores device interval epoch).of_eq (by rw [hs₁]; rfl) (by rw [hs₁]; rfl)
  have hfresh : s.clock.isStale .relaxed (blank epoch) = false := isStale_blank s.clock
  have hsent : (s₁.cycle 0).sent = [blank epoch] := by
    have hitems : s₁.queue.items.toList = [blank epoch] := by
      rw [hs₁]
      exact WorkQueue.items_append_of_fresh (q := s.queue) (by simp [s, start, WorkQueue.empty]) hfresh
    have hcalm : s₁.queue.needFlush = false := by
      rw [hs₁]
      exact WorkQueue.needFlush_append
    have hclock : s₁.clock = s.clock := by rw [hs₁]; rfl
    rw [cycle, Poller.begin_sent, hitems, hcalm, hclock, WorkQueue.freshOf,
      List.filter_cons_of_pos (by simp [hfresh])]
    rfl
  have hempty : s₁.bus.pending = [] := by rw [hs₁]; rfl
  obtain ⟨hpoll, hfeeding⟩ := htracks.learns hdeep hempty (hsent ▸ List.cons_ne_nil _ _)
  have hrun : s.run [.append (blank epoch), .poll 0] = s₁.poll 0 := by
    rw [run_cons, run_cons, run_nil, act_poll, hs₁]
  rw [← hrun] at hpoll hfeeding
  obtain ⟨acts, now, finished, hend, hpos⟩ := hfeeding.exists_displaced hpoll hdeep hslow
  rw [← run_append] at hend
  exact ⟨_, now, finished, hend, hpos⟩

end Station

/-! ## Simulated rigs -/

namespace Settings

variable {o : Options} {settings : Settings}

theorem simulation_of_error? {slaves : List UInt16} (h : error? o slaves = none) :
    o.simulation.boards ≠ 0 ∧ o.simulation.boards.toNat ≤ boardSlaves.length ∧
      o.simulation.devices ≠ 0 := by
  unfold error? at h
  -- four faults of other settings, then the slaves, the boards and the devices
  iterate 4
    split at h
    · cases h
  split at h
  · cases h
  split at h
  · cases h
  rename_i hboards
  split at h
  · cases h
  rename_i hdevices
  rw [not_or, Nat.not_lt] at hboards
  exact ⟨hboards.1, hboards.2, (not_or.mp hdevices).1⟩

theorem simulation_of_ofOptions (h : ofOptions o = .ok settings) :
    settings.simulation.boards ≠ 0 ∧ settings.simulation.boards.toNat ≤ boardSlaves.length ∧
      settings.simulation.devices ≠ 0 := by
  unfold ofOptions at h
  simp only at h
  split at h
  · cases h
  · rename_i hnone
    obtain rfl := Except.ok.inj h
    exact simulation_of_error? hnone

end Settings

namespace Rig

/-- The boards of simulated rigs, given by their status bytes. -/
def simulatedStatuses (s : Simulation) : List (UInt8 × List UInt8) :=
  (simulatedBoards s).map (·, List.replicate Wire.coresPerBoard Wire.coreStatusOk)

def simulatedSettings (s : Simulation) : SimulatorSettings :=
  { SimulatorSettings.standard with
    boards := (simulatedBoards s).map (·, UInt32.ofNat Wire.coresPerBoard)
    queueDepth := s.queueDepth
    completionsPerPoll := s.completions }

variable {sim : Simulation}

theorem simulatedStatuses_asics : (simulatedStatuses sim).map Prod.fst = simulatedBoards sim := by
  simp [simulatedStatuses, Function.comp_def]

theorem coreTotal_simulated :
    CoreMap.coreTotal (simulatedStatuses sim) = sim.boards.toNat * Wire.coresPerBoard := by
  simp [CoreMap.coreTotal, simulatedStatuses, simulatedBoards, Function.comp_def]

theorem simulatedBoards_asics (h : sim.boards.toNat ≤ Settings.boardSlaves.length) :
    (simulatedBoards sim).Nodup ∧ ∀ asic ∈ simulatedBoards sim, asic < 8 := by
  have hfew : Settings.boardSlaves.length < 8 := by decide
  have hasic : ∀ n ∈ List.range sim.boards.toNat, n < 8 ∧ (UInt8.ofNat n).toNat = n := by
    intro n hn
    have hlt := List.mem_range.mp hn
    exact ⟨by omega, UInt8.toNat_ofNat_of_lt' (by simp only [UInt8.size]; omega)⟩
  constructor
  · unfold List.Nodup
    rw [simulatedBoards, List.pairwise_map]
    refine List.pairwise_lt_range.imp_of_mem ?_
    intro m n hm hn hlt he
    have hsame := congrArg UInt8.toNat he
    rw [(hasic m hm).2, (hasic n hn).2] at hsame
    exact Nat.ne_of_lt hlt hsame
  · intro asic ha
    obtain ⟨n, hn, rfl⟩ := List.mem_map.mp ha
    rw [UInt8.lt_iff_toNat_lt, (hasic n hn).2]
    exact (hasic n hn).1

theorem mounted_simulated (hsome : sim.boards ≠ 0)
    (hfew : sim.boards.toNat ≤ Settings.boardSlaves.length) :
    Mounted (simulatedStatuses sim) (simulatedSettings sim) where
  same := by simp [simulatedSettings, SimulatorSettings.boardsOf, simulatedStatuses]
  asics := simulatedStatuses_asics ▸ (simulatedBoards_asics hfew).1
  asic_lt := by
    intro board hb
    refine (simulatedBoards_asics hfew).2 board.1 ?_
    rw [← simulatedStatuses_asics]
    exact List.mem_map_of_mem hb
  cores_pos := by
    rw [coreTotal_simulated]
    exact Nat.mul_pos (Nat.pos_of_ne_zero fun hz => hsome (UInt8.toNat_inj.mp hz)) (by decide)
  cores_lt := by
    rw [coreTotal_simulated]
    have hlength : Settings.boardSlaves.length = 7 := by decide
    simp only [Wire.coresPerBoard, UInt32.size]
    omega

theorem simulated_eq (h : (simulatedBoards sim).Nodup) (pollMicros : Nat) :
    ∃ cores : CoreMap, cores.Laid (simulatedStatuses sim) ∧
      simulated sim pollMicros = .ok ((List.range sim.devices.toNat).map fun n =>
        create s!"sim{n}" (simulatedController.busName (Simulator.start (simulatedSettings sim))) cores
          pollMicros (Simulator.start (simulatedSettings sim))) := by
  have hasics : ((simulatedStatuses sim).map Prod.fst).Nodup := simulatedStatuses_asics ▸ h
  obtain ⟨cores, hcores, hlaid⟩ := CoreMap.registerAll_laid hasics
  refine ⟨cores, hlaid, ?_⟩
  rw [simulatedStatuses] at hcores
  rw [simulated, hcores]
  rfl

end Rig

namespace Station

/-- With settings that are accepted, a simulated device pushes an item out under its own id in some run if
and only if its boards are deeper than there are ids and finish fewer items in a cycle than fit into a
transaction. -/
theorem reissues_iff {o : Options} {settings : Settings} (h : Settings.ofOptions o = .ok settings) :
    ∃ rigs, Rig.simulated settings.simulation settings.pollMicros = .ok rigs ∧ rigs ≠ [] ∧
      ∀ rig ∈ rigs, ∀ epoch,
        let s := start rig.device.name rig.device.cores rig.device.interval epoch rig.bus
        (∃ acts now finished, (s.run acts).finished? now = some finished ∧ 0 < finished.displaced) ↔
          Wire.idSpace < settings.simulation.queueDepth.toNat ∧
            settings.simulation.completions < Wire.framesPerTransaction := by
  obtain ⟨hsome, hfew, hdevices⟩ := Settings.simulation_of_ofOptions h
  obtain ⟨cores, hlaid, hrigs⟩ :=
    Rig.simulated_eq (Rig.simulatedBoards_asics hfew).1 settings.pollMicros
  refine ⟨_, hrigs, ?_, ?_⟩
  · intro hnil
    rw [List.map_eq_nil_iff, List.range_eq_nil] at hnil
    exact hdevices (UInt8.toNat_inj.mp hnil)
  · intro rig hrig epoch
    obtain ⟨n, _, rfl⟩ := List.mem_map.mp hrig
    intro s
    have hmounted := Rig.mounted_simulated hsome hfew
    constructor
    · rintro ⟨acts, now, finished, hend, hpos⟩
      by_contra hfit
      have hfit : settings.simulation.queueDepth.toNat ≤ Wire.idSpace ∨
          Wire.framesPerTransaction ≤ settings.simulation.completions := by omega
      have hstart : s.Tracking _ _ := tracking_start hmounted hlaid _ _ epoch
      have hs := hstart.run hfit acts
      have hzero := hs.displaced_eq (hs.room_of_fit hfit now) hend
      omega
    · rintro ⟨hdeep, hslow⟩
      exact exists_displaced hmounted hdeep hslow hlaid _ _ epoch

/-- The standard settings push nothing out. -/
theorem reissues_iff_standard :
    ∃ settings rigs, Settings.ofOptions .standard = .ok settings ∧
      Rig.simulated settings.simulation settings.pollMicros = .ok rigs ∧ rigs ≠ [] ∧
      ∀ rig ∈ rigs, ∀ epoch,
        let s := start rig.device.name rig.device.cores rig.device.interval epoch rig.bus
        ∀ acts now finished, (s.run acts).finished? now = some finished → finished.displaced = 0 := by
  have hok : ∃ settings, Settings.ofOptions .standard = .ok settings ∧
      settings.simulation = Options.standard.simulation := ⟨_, rfl, rfl⟩
  obtain ⟨settings, hok, hsim⟩ := hok
  obtain ⟨rigs, hrigs, hsome, hall⟩ := reissues_iff hok
  refine ⟨settings, rigs, hok, hrigs, hsome, ?_⟩
  intro rig hrig epoch s acts now finished hend
  by_contra hpos
  have hdeep := ((hall rig hrig epoch).mp ⟨acts, now, finished, hend, Nat.pos_of_ne_zero hpos⟩).1
  rw [hsim] at hdeep
  exact absurd hdeep (by decide)

/-- One board with one place more than there are ids, which finishes nothing. -/
def deep : Options :=
  { Options.standard with bus := .sim, simulation := ⟨1, 1, 32769, 0⟩ }

/-- Settings that are accepted, and a run that pushes an item out. -/
theorem reissues_deep :
    ∃ settings rigs, Settings.ofOptions deep = .ok settings ∧
      Rig.simulated settings.simulation settings.pollMicros = .ok rigs ∧
      ∃ rig ∈ rigs, ∃ acts now finished,
        ((start rig.device.name rig.device.cores rig.device.interval 1 rig.bus).run acts).finished? now =
          some finished ∧ 0 < finished.displaced := by
  have hok : ∃ settings, Settings.ofOptions deep = .ok settings ∧
      settings.simulation = deep.simulation := ⟨_, rfl, rfl⟩
  obtain ⟨settings, hok, hsim⟩ := hok
  obtain ⟨hsome, hfew, _⟩ := Settings.simulation_of_ofOptions hok
  obtain ⟨cores, hlaid, hrigs⟩ :=
    Rig.simulated_eq (Rig.simulatedBoards_asics hfew).1 settings.pollMicros
  refine ⟨settings, _, hok, hrigs, _, List.mem_map.mpr ⟨0, ?_, rfl⟩, ?_⟩
  · rw [hsim]
    decide
  · refine exists_displaced (Rig.mounted_simulated hsome hfew) ?_ ?_ hlaid _ _ 1
    · show _ < settings.simulation.queueDepth.toNat
      rw [hsim]
      decide
    · show settings.simulation.completions < _
      rw [hsim]
      decide

end Station

end Hashboard
