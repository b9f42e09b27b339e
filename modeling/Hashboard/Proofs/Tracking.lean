import Hashboard.Proofs.Conservation
import Hashboard.Proofs.Simulator

/-!
# The table tracks simulated boards

A cycle takes from the table what the boards have finished and brings what they take, so that both hold the
same ids in the same order afterwards. That is so as long as there are ids for all of them.
-/

namespace Hashboard

/-! ## Finished items -/

/-- What is reported for an item that finishes: a nonce now and then, and its completion. -/
def SimulatorSettings.reportsFor (s : SimulatorSettings) (p : UInt16 × Item) : List Event :=
  let core : CoreId := ⟨p.1.toNat % s.coreCount⟩
  (if p.1 % max s.nonceEvery 1 = 0 then [.nonce core p.2 (p.1.toUInt32 * 0x9e3779b9)] else [])
    ++ [.completed core Wire.hashesPerWork]

namespace InFlight

variable {t : InFlight} {cores : CoreMap} {s : SimulatorSettings}

theorem Sound.live_retire_front (h : t.Sound) {id item rest} (hlive : t.live = (id, item) :: rest)
    {r : ReplyRecord} (hr : r.ends id) : (t.retire r).live = rest := by
  have hnd := h.live_nodup
  rw [hlive, List.map_cons, List.nodup_cons] at hnd
  have hrest : rest.filter (fun p => ¬ r.ends p.1) = rest := by
    refine List.filter_eq_self.mpr ?_
    intro p hp
    rw [decide_eq_true_eq]
    rintro ⟨_, he⟩
    exact hnd.1 (List.mem_map.mpr ⟨p, hp, he.symm.trans hr.2⟩)
  rw [h.live_retire, hlive, List.filter_cons_of_neg (by simpa using hr), hrest]

/-- The records for the oldest item take it off the table and report it. -/
theorem Sound.finish_front (h : t.Sound) {id item rest} (hlive : t.live = (id, item) :: rest)
    (hcore : cores.resolve (s.addressFor id) = some ⟨id.toNat % s.coreCount⟩) :
    (t.retireAll (s.repliesFor id)).live = rest ∧
      t.eventsOf cores (s.repliesFor id) = s.reportsFor (id, item) ∧
      ∀ summary, (t.tallyAll cores summary (s.repliesFor id)).unknown = summary.unknown ∧
        (t.tallyAll cores summary (s.repliesFor id)).unresolved = summary.unresolved := by
  have hget : t.get? id = some item := h.mem_live.mp (by simp [hlive])
  have hgone := h.live_retire_front hlive (r := ⟨.done, s.addressFor id, id, 0⟩) ⟨rfl, rfl⟩
  unfold SimulatorSettings.repliesFor SimulatorSettings.reportsFor
  split
  · refine ⟨hgone, ?_, ?_⟩
    · simp [eventsOf, eventOf, InFlight.retire, hget, hcore]
    · simp [tallyAll, tally, InFlight.retire, hget, hcore, Bool.toUInt32]
  · refine ⟨hgone, ?_, ?_⟩
    · simp [eventsOf, eventOf, hget, hcore]
    · simp [tallyAll, tally, hget, hcore, Bool.toUInt32]

/-- So do the records for the oldest items, one after the other. -/
theorem Sound.finish_all (h : t.Sound) {done left} (hlive : t.live = done ++ left)
    (hcores : ∀ id, cores.resolve (s.addressFor id) = some ⟨id.toNat % s.coreCount⟩) :
    let rs := (done.map Prod.fst).flatMap s.repliesFor
    (t.retireAll rs).live = left ∧ t.eventsOf cores rs = done.flatMap s.reportsFor ∧
      ∀ summary, (t.tallyAll cores summary rs).unknown = summary.unknown ∧
        (t.tallyAll cores summary rs).unresolved = summary.unresolved := by
  induction done generalizing t with
  | nil => exact ⟨hlive, rfl, fun _ => ⟨rfl, rfl⟩⟩
  | cons p done ih =>
      obtain ⟨id, item⟩ := p
      obtain ⟨hone, hevents, hsummary⟩ := h.finish_front hlive (hcores id)
      obtain ⟨hall, hmore, hrest⟩ := ih (h.retireAll _) hone
      simp only [List.map_cons, List.flatMap_cons, retireAll_append, eventsOf_append, tallyAll_append]
      refine ⟨hall, by rw [hevents, hmore], ?_⟩
      intro summary
      obtain ⟨h₁, h₂⟩ := hrest (t.tallyAll cores summary (s.repliesFor id))
      exact ⟨h₁.trans (hsummary summary).1, h₂.trans (hsummary summary).2⟩

end InFlight

/-! ## The records on the wire -/

/-- The settings of boards with these cores: different asics that fit on the wire, and not too many cores. -/
structure Mounted (boards : List (UInt8 × List UInt8)) (settings : SimulatorSettings) : Prop where
  same : settings.boards = SimulatorSettings.boardsOf boards
  asics : (boards.map Prod.fst).Nodup
  asic_lt : ∀ board ∈ boards, board.1 < 8
  cores_pos : 0 < CoreMap.coreTotal boards
  cores_lt : CoreMap.coreTotal boards < UInt32.size

namespace Mounted

variable {boards : List (UInt8 × List UInt8)} {settings : SimulatorSettings}

theorem resolve (h : Mounted boards settings) {cores : CoreMap} (hcores : cores.Laid boards) (id : UInt16) :
    cores.resolve (settings.addressFor id) = some ⟨id.toNat % settings.coreCount⟩ :=
  hcores.resolve_iff.mpr (SimulatorSettings.coreAt_addressFor h.same h.cores_pos h.cores_lt id)

theorem asic_addressFor_lt (h : Mounted boards settings) (id : UInt16) :
    (settings.addressFor id).asic < 8 := by
  obtain ⟨_, hat⟩ := SimulatorSettings.coreAt_addressFor h.same h.cores_pos h.cores_lt id
  exact h.asic_lt _ hat.mem

theorem overcrowded_eq (h : Mounted boards settings) : settings.overcrowded = false := by
  rw [SimulatorSettings.overcrowded, SimulatorSettings.coreCount_eq h.same h.cores_lt]
  simpa using h.cores_lt

/-- The records that the boards send fit on the wire. -/
theorem fits (h : Mounted boards settings) {id : UInt16} (hid : id < 32768) {r : ReplyRecord}
    (hr : r ∈ settings.repliesFor id) : r.address.asic < 8 ∧ r.id < 32768 := by
  have hfields : r.id = id ∧ r.address = settings.addressFor id := by
    unfold SimulatorSettings.repliesFor at hr
    split at hr
    · simp only [List.cons_append, List.nil_append, List.mem_cons, List.not_mem_nil, or_false] at hr
      rcases hr with rfl | rfl <;> exact ⟨rfl, rfl⟩
    · simp only [List.nil_append, List.mem_singleton] at hr
      subst hr
      exact ⟨rfl, rfl⟩
  rw [hfields.1, hfields.2]
  exact ⟨h.asic_addressFor_lt id, hid⟩

end Mounted

/-- One full board behind the standard simulator. -/
theorem mounted_standard : Mounted [(0, List.replicate Wire.coresPerBoard 3)] .standard := by
  have htotal : CoreMap.coreTotal [(0, List.replicate Wire.coresPerBoard 3)] = 192 := by
    rw [CoreMap.coreTotal, List.map_singleton, List.length_replicate]
    rfl
  have hboards : SimulatorSettings.boardsOf [(0, List.replicate Wire.coresPerBoard 3)] = [(0, 192)] := by
    rw [SimulatorSettings.boardsOf, List.map_singleton, List.length_replicate]
    rfl
  refine ⟨hboards.symm, by decide, by decide, ?_, ?_⟩ <;> rw [htotal] <;> decide

/-! ## The invariant -/

namespace Station

variable {boards : List (UInt8 × List UInt8)} {settings : SimulatorSettings} {s : Station Simulator}
  {now : Instant}

/-- Driver and boards hold the same ids, given out in a row, and not too many of them: if the boards finish
a whole transaction's worth of items at once, they never hold more. -/
structure Tracking (boards : List (UInt8 × List UInt8)) (settings : SimulatorSettings)
    (s : Station Simulator) : Prop where
  mounted : Mounted boards settings
  configured : s.bus.settings = settings
  mapped : s.poller.cores.Laid boards
  table : s.poller.table.Sound
  row : s.poller.table.Consecutive
  ids : s.poller.table.ids = s.bus.pending
  deep : s.bus.pending.length ≤ settings.queueDepth.toNat
  narrow : Wire.framesPerTransaction ≤ settings.completionsPerPoll →
    s.bus.pending.length ≤ Wire.framesPerTransaction

/-- The items that finish in a cycle begun now. -/
def finishing (s : Station Simulator) : List (UInt16 × Item) :=
  s.poller.table.live.take s.bus.settings.completionsPerPoll

/-- The items in flight that do not. -/
def staying (s : Station Simulator) : List (UInt16 × Item) :=
  s.poller.table.live.drop s.bus.settings.completionsPerPoll

theorem live_split : s.poller.table.live = s.finishing ++ s.staying :=
  (List.take_append_drop _ _).symm

theorem Tracking.live_ids (h : s.Tracking boards settings) : s.poller.table.live.map Prod.fst = s.bus.pending :=
  h.table.live_ids.trans h.ids

theorem Tracking.replies_eq (h : s.Tracking boards settings) :
    s.bus.replies = (s.finishing.map Prod.fst).flatMap settings.repliesFor := by
  rw [Simulator.replies, finishing, List.map_take, h.live_ids, h.configured]

theorem Tracking.kept_eq (h : s.Tracking boards settings) : s.bus.kept = s.staying.map Prod.fst := by
  rw [Simulator.kept, staying, List.map_drop, h.live_ids]

theorem Tracking.replies_length (h : s.Tracking boards settings) :
    s.bus.replies.length ≤ Reply.room Wire.transactionLength := by
  -- at most a nonce and a completion for each item that finishes
  have hone : ∀ id, (settings.repliesFor id).length ≤ 2 := by
    intro id
    unfold SimulatorSettings.repliesFor
    split <;> simp
  have hall : ∀ ids : List UInt16, (ids.flatMap settings.repliesFor).length ≤ 2 * ids.length := by
    intro ids
    induction ids with
    | nil => simp
    | cons id rest ih =>
        have hid := hone id
        simp only [List.flatMap_cons, List.length_append, List.length_cons]
        omega
  have hcount : (s.bus.pending.take settings.completionsPerPoll).length ≤ Wire.framesPerTransaction := by
    rw [List.length_take]
    by_cases hwide : Wire.framesPerTransaction ≤ settings.completionsPerPoll
    · have hnarrow := h.narrow hwide
      omega
    · omega
  have hfit : 2 * Wire.framesPerTransaction ≤ Reply.room Wire.transactionLength := by decide
  have hlen := hall (s.bus.pending.take settings.completionsPerPoll)
  rw [Simulator.replies, h.configured]
  omega

theorem Tracking.records_eq (h : s.Tracking boards settings) (header : ReplyHeader) :
    Reply.records (Reply.write Wire.transactionLength header s.bus.replies) = s.bus.replies := by
  have hfit : ∀ r ∈ s.bus.replies, r.address.asic < 8 ∧ r.id < 32768 := by
    intro r hr
    rw [h.replies_eq, List.mem_flatMap] at hr
    obtain ⟨_, hid, hr⟩ := hr
    obtain ⟨p, hp, rfl⟩ := List.mem_map.mp hid
    exact h.mounted.fits (h.table.id_lt_of_mem (List.mem_of_mem_take hp)) hr
  exact Reply.records_write_of_fits (by decide) h.replies_length hfit

/-! ## One cycle -/

/-- What the boards take in a cycle begun now. -/
def entering (s : Station Simulator) (now : Instant) : List Item :=
  (s.cycle now).sent.take s.bus.room

/-- The items taken, each with the id that it gets. -/
def admitted (s : Station Simulator) (now : Instant) : List (UInt16 × Item) :=
  ((List.range (s.entering now).length).map s.poller.table.idAt).zip (s.entering now)

theorem admitted_ids :
    (s.admitted now).map Prod.fst = (List.range (s.entering now).length).map s.poller.table.idAt :=
  List.map_fst_zip (by simp)

theorem admitted_items : (s.admitted now).map Prod.snd = s.entering now :=
  List.map_snd_zip (by simp)

/-- What the boards hold after a cycle begun now. -/
def held (s : Station Simulator) (now : Instant) : List UInt16 :=
  (if (s.cycle now).flushing then [] else s.bus.kept) ++
    (List.range (s.entering now).length).map s.poller.table.idAt

/-- The boards answer every cycle with the records of the items that finish, and take the items that enter. -/
theorem Tracking.poll_eq (h : s.Tracking boards settings) (now : Instant) :
    ∃ rx, s.answer now = .received rx ∧ Reply.records rx = s.bus.replies ∧
      (ReplyHeader.decode rx).accepted.toNat = (if (s.cycle now).sent = [] then 0 else s.bus.room) ∧
      (s.cycle now).taken rx = s.entering now ∧
      s.poll now = {
        clock := s.clock
        queue := s.poller.queueAfter (s.cycle now) rx (s.rest now)
        poller := { s.poller with table := s.poller.tableAfter (s.cycle now) rx }
        bus := { s.bus with pending := s.held now } } := by
  have hheld : s.held now = (if (s.cycle now).flushing then [] else s.bus.kept) ++
      ((List.range (s.cycle now).sent.length).map s.poller.table.idAt).take s.bus.room := by
    rw [held, entering, List.length_take, ← List.map_take, List.take_range]
  have hcrowd : s.bus.settings.overcrowded = false := h.configured ▸ h.mounted.overcrowded_eq
  obtain ⟨header, hexchange, haccepted⟩ := s.bus.exchange_begin hcrowd s.poller s.clock now s.queue
  have hbus : Bus.exchange s.bus (s.cycle now).buffers.tx (s.cycle now).buffers.length =
      (.received (Reply.write Wire.transactionLength header s.bus.replies),
        { s.bus with pending := s.held now }) := hheld ▸ hexchange
  have hanswer : s.answer now =
      .received (Reply.write Wire.transactionLength header s.bus.replies) := congrArg Prod.fst hbus
  have hpoll := poll_received hanswer
  rw [hbus] at hpoll
  refine ⟨_, hanswer, h.records_eq header, ?_, ?_, hpoll⟩
  · rw [Reply.decode_write (by decide)]
    exact haccepted
  · rw [PollCycle.taken, Reply.decode_write (by decide), entering]
    simp only [haccepted]
    split
    · rename_i hnone
      have hsent : (s.cycle now).sent = [] := hnone
      simp [hsent]
    · rfl

/-- The records of a cycle take the finishing items off the table and report them. -/
theorem Tracking.dispatched (h : s.Tracking boards settings) :
    (s.poller.table.retireAll s.bus.replies).live = s.staying ∧
      s.poller.table.eventsOf s.poller.cores s.bus.replies = s.finishing.flatMap settings.reportsFor ∧
      ∀ summary, (s.poller.table.tallyAll s.poller.cores summary s.bus.replies).unknown = summary.unknown ∧
        (s.poller.table.tallyAll s.poller.cores summary s.bus.replies).unresolved =
          summary.unresolved := by
  rw [h.replies_eq]
  exact h.table.finish_all live_split (h.mounted.resolve h.mapped)

section Reply

variable {rx : List UInt8}

theorem Tracking.live_cleared (h : s.Tracking boards settings) (hrx : Reply.records rx = s.bus.replies) :
    ((s.cycle now).cleared s.poller.table rx).live =
      if (s.cycle now).flushing then [] else s.staying := by
  unfold PollCycle.cleared
  rw [hrx]
  cases (s.cycle now).flushing with
  | true => simp
  | false => exact h.dispatched.1

theorem Tracking.consecutive_cleared (h : s.Tracking boards settings) (hrx : Reply.records rx = s.bus.replies) :
    ((s.cycle now).cleared s.poller.table rx).Consecutive := by
  have hsound : ((s.cycle now).cleared s.poller.table rx).Sound := PollCycle.sound_cleared h.table
  -- what is gone stood in front, so what is left is still in a row
  have hsplit : ∃ gone, s.poller.table.live = gone ++ ((s.cycle now).cleared s.poller.table rx).live := by
    rw [h.live_cleared hrx]
    cases (s.cycle now).flushing with
    | true => exact ⟨s.poller.table.live, (List.append_nil _).symm⟩
    | false => exact ⟨s.finishing, live_split⟩
  obtain ⟨gone, hlive⟩ := hsplit
  have hids : s.poller.table.ids =
      gone.map Prod.fst ++ ((s.cycle now).cleared s.poller.table rx).ids := by
    rw [← h.table.live_ids, ← hsound.live_ids, hlive, List.map_append]
  exact h.row.drop PollCycle.nextId_cleared hids

/-- Those on the table and those that enter are as many as the boards hold afterwards. -/
theorem Tracking.length_cleared (h : s.Tracking boards settings) (now : Instant)
    (hrx : Reply.records rx = s.bus.replies) :
    ((s.cycle now).cleared s.poller.table rx).ids.length + (s.entering now).length =
      (s.held now).length := by
  have hsound : ((s.cycle now).cleared s.poller.table rx).Sound := PollCycle.sound_cleared h.table
  rw [← hsound.live_ids, h.live_cleared hrx, held, h.kept_eq, List.length_append, List.length_map,
    List.length_map, List.length_range]
  cases (s.cycle now).flushing with
  | true => rfl
  | false => simp

/-- If there are ids for all of them, the items taken enter the table behind those that stay, and push
nothing out. -/
theorem Tracking.insertAccepted (h : s.Tracking boards settings) (hrx : Reply.records rx = s.bus.replies)
    (htaken : (s.cycle now).taken rx = s.entering now) (hroom : (s.held now).length ≤ Wire.idSpace) :
    (Poller.insertAccepted ((s.cycle now).cleared s.poller.table rx) ((s.cycle now).taken rx)).1 = [] ∧
      (s.poller.tableAfter (s.cycle now) rx).live =
        (if (s.cycle now).flushing then [] else s.staying) ++ s.admitted now ∧
      (s.poller.tableAfter (s.cycle now) rx).Consecutive := by
  have hsound : ((s.cycle now).cleared s.poller.table rx).Sound := PollCycle.sound_cleared h.table
  have hidAt : ((s.cycle now).cleared s.poller.table rx).idAt = s.poller.table.idAt :=
    funext fun _ => PollCycle.idAt_cleared
  rw [← h.length_cleared now hrx] at hroom
  obtain ⟨hnone, hlive, hrow⟩ :=
    Poller.insertAccepted_consecutive hsound (h.consecutive_cleared hrx) hroom
  rw [Poller.tableAfter, htaken]
  refine ⟨hnone, ?_, hrow⟩
  rw [hlive, h.live_cleared hrx, hidAt, admitted]

theorem Tracking.ids_tableAfter (h : s.Tracking boards settings) (hrx : Reply.records rx = s.bus.replies)
    (htaken : (s.cycle now).taken rx = s.entering now) (hroom : (s.held now).length ≤ Wire.idSpace) :
    (s.poller.tableAfter (s.cycle now) rx).ids = s.held now := by
  have hsound : (s.poller.tableAfter (s.cycle now) rx).Sound := Poller.sound_tableAfter h.table
  rw [← hsound.live_ids, (h.insertAccepted hrx htaken hroom).2.1, List.map_append, admitted_ids, held,
    h.kept_eq]
  cases (s.cycle now).flushing <;> rfl

end Reply

/-- The boards take no more than they have places for. -/
theorem Tracking.length_held (h : s.Tracking boards settings) (now : Instant) :
    (s.held now).length ≤ settings.queueDepth.toNat := by
  have hkept : s.bus.kept.length ≤ s.bus.pending.length := by
    rw [Simulator.kept, List.length_drop]
    omega
  have htaken : (s.entering now).length ≤ s.bus.room := List.length_take_le _ _
  have hdeep := h.deep
  rw [Simulator.room, h.configured] at htaken
  rw [held, List.length_append, List.length_map, List.length_range]
  split
  · rw [List.length_nil]
    omega
  · omega

/-- Boards that finish a whole transaction's worth of items hold nothing but what they took last. -/
theorem Tracking.narrow_held (h : s.Tracking boards settings)
    (hwide : Wire.framesPerTransaction ≤ settings.completionsPerPoll) :
    (s.held now).length ≤ Wire.framesPerTransaction := by
  have hnone : s.bus.kept = [] := by
    rw [Simulator.kept, h.configured, List.drop_eq_nil_iff]
    exact Nat.le_trans (h.narrow hwide) hwide
  have hsent : (s.cycle now).sent.length + s.queue.needFlush.toNat ≤ Wire.framesPerTransaction :=
    Poller.begin_sent_length s.poller s.clock now s.queue
  have hentering : (s.entering now).length ≤ (s.cycle now).sent.length := List.length_take_le' _ _
  rw [held, hnone, ite_self, List.nil_append, List.length_map, List.length_range]
  omega

/-! ## Runs -/

theorem Tracking.poll (h : s.Tracking boards settings) (hroom : (s.held now).length ≤ Wire.idSpace) :
    (s.poll now).Tracking boards settings := by
  obtain ⟨rx, _, hrx, _, htaken, hpoll⟩ := h.poll_eq now
  obtain ⟨_, _, hrow⟩ := h.insertAccepted hrx htaken hroom
  rw [hpoll]
  exact ⟨h.mounted, h.configured, h.mapped, Poller.sound_tableAfter h.table, hrow,
    h.ids_tableAfter hrx htaken hroom, h.length_held now, h.narrow_held⟩

/-- Neither the clock nor the queue matters. -/
theorem Tracking.of_eq (h : s.Tracking boards settings) {t : Station Simulator} (hp : t.poller = s.poller)
    (hb : t.bus = s.bus) : t.Tracking boards settings := by
  obtain ⟨hmounted, hconfigured, hmapped, htable, hrow, hids, hdeep, hnarrow⟩ := h
  rw [← hp] at hmapped htable hrow hids
  rw [← hb] at hconfigured hids hdeep hnarrow
  exact ⟨hmounted, hconfigured, hmapped, htable, hrow, hids, hdeep, hnarrow⟩

/-- A cycle needs ids for all that the boards hold after it; other acts need none. -/
theorem Tracking.act (h : s.Tracking boards settings) (act : Act)
    (hroom : ∀ now, act = .poll now → (s.held now).length ≤ Wire.idSpace) :
    (s.act act).Tracking boards settings := by
  cases act with
  | append item => exact h.of_eq rfl rfl
  | prune => exact h.of_eq rfl rfl
  | flush now => exact h.of_eq rfl rfl
  | advance epoch keepInFlight => exact h.of_eq rfl rfl
  | poll now =>
      rw [act_poll]
      exact h.poll (hroom now rfl)

theorem tracking_start (h : Mounted boards settings) {cores : CoreMap} (hcores : cores.Laid boards)
    (device : String) (interval : Nat) (epoch : UInt64) :
    (start device cores interval epoch (Simulator.start settings)).Tracking boards settings where
  mounted := h
  configured := rfl
  mapped := hcores
  table := InFlight.sound_empty
  row := InFlight.consecutive_empty
  ids := by
    show InFlight.empty.ids = []
    simp
  deep := Nat.zero_le _
  narrow := fun _ => Nat.zero_le _

end Station

end Hashboard
