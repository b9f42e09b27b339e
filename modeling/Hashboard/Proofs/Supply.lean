import Hashboard.StandIn
import Hashboard.Proofs.Feeder

/-!
# A feeder at work

A feeder fills its devices and ends epochs in any order and at any times. Whatever the devices answer, its items
are accounted for, offered in the order in which they are made and in the epoch in which they are made, and no
two of them look alike on the wire (`accounted`).
-/

namespace Hashboard

/-! ## What the events say -/

/-- The two items cannot be confused, nor can the frames that submit them under any ids. -/
def Item.Apart (a b : Item) : Prop :=
  a.work.tail ≠ b.work.tail ∧ ∀ id id', Frame.submission id a.work ≠ Frame.submission id' b.work

/-- What is true of a feeder after these events. -/
structure Accounted (events : List FeedEvent) (f : Feeder) : Prop where
  /-- Each item that is made is taken, held or dropped. -/
  balance : f.generated = (FeedEvent.taken events).length + (if f.held.isSome then 1 else 0) +
    (FeedEvent.dropped events).length
  /-- No item is taken twice, or taken and dropped. -/
  handles : ((FeedEvent.taken events ++ FeedEvent.dropped events ++ f.held.toList).map Item.handle).Perm
    (List.range f.generated)
  ascending : ((FeedEvent.taken events).map Item.handle).Pairwise (· < ·)
  /-- An item that is refused is offered again, unless the end of an epoch is what follows. -/
  chain : events.IsChain FeedEvent.Follows
  last : ∀ e, events.getLast? = some e → e.madeAfter = f.generated ∧ e.heldAfter = f.held
  order : events.Pairwise FeedEvent.Before
  fresh : ∀ epoch item taken, .offered epoch item taken ∈ events → item.epoch = epoch
  apart : (FeedEvent.taken events ++ FeedEvent.dropped events ++ f.held.toList).Pairwise Item.Apart

namespace Feeder.Tracked

variable {f : Feeder} {clock : EpochClock} {events : List FeedEvent}

theorem handles_perm (h : Tracked events f clock) :
    ((FeedEvent.taken events ++ FeedEvent.dropped events ++ f.held.toList).map Item.handle).Perm
      (List.range f.generated) := by
  rw [← h.leads.handles]
  exact ((FeedEvent.gone_perm events).append_right _).map _

theorem exists_itemAt (h : Tracked events f clock) {item : Item}
    (hitem : item ∈ FeedEvent.taken events ++ FeedEvent.dropped events ++ f.held.toList) :
    item.handle < f.generated ∧ ∃ epoch, item = itemAt epoch item.handle := by
  refine ⟨List.mem_range.mp (h.handles_perm.subset (List.mem_map_of_mem hitem)), ?_⟩
  rcases List.mem_append.mp hitem with hgone | hheld
  · exact FeedEvent.genuine_of_mem_gone h.leads.genuine ((FeedEvent.gone_perm events).subset hgone)
  · exact ⟨_, (h.sound.held item (Option.mem_toList.mp hheld)).1⟩

theorem apart (h : Tracked events f clock) (hmade : f.generated < UInt64.size) :
    (FeedEvent.taken events ++ FeedEvent.dropped events ++ f.held.toList).Pairwise Item.Apart := by
  have hnodup : ((FeedEvent.taken events ++ FeedEvent.dropped events ++ f.held.toList).map Item.handle).Nodup :=
    h.handles_perm.nodup_iff.mpr List.nodup_range
  refine (List.pairwise_map.mp hnodup).imp_of_mem ?_
  intro a b ha hb hne
  obtain ⟨hlt, epoch, heq⟩ := h.exists_itemAt ha
  obtain ⟨hlt', epoch', heq'⟩ := h.exists_itemAt hb
  have htail : a.work.tail ≠ b.work.tail := by
    rw [heq, heq']
    exact itemAt_tail_ne (Nat.lt_trans hlt hmade) (Nat.lt_trans hlt' hmade) hne
  exact ⟨htail, fun id id' hframe => htail (Frame.submission_eq_iff.mp hframe).2.2⟩

theorem accounts (h : Tracked events f clock) (hmade : f.generated < UInt64.size) : Accounted events f where
  balance := by
    have hcount := h.handles_perm.length_eq
    rw [List.length_map, List.length_append, List.length_append, List.length_range, Option.length_toList] at hcount
    omega
  handles := h.handles_perm
  ascending := by
    have hsub := (FeedEvent.taken_sublist events).trans (List.sublist_append_left _ f.held.toList)
    have hrange := hsub.map Item.handle
    rw [h.leads.handles] at hrange
    exact List.pairwise_lt_range.sublist hrange
  chain := h.leads.chain
  last := fun _ => h.leads.last
  order := h.leads.order
  fresh := by
    intro epoch item taken hmem
    have hgenuine : item = itemAt epoch item.handle := h.leads.genuine _ hmem
    rw [hgenuine]
    rfl
  apart := h.apart hmade

end Feeder.Tracked

/-! ## Runs -/

/-- A feeder, the clock that it alone advances, and the devices that it supplies. -/
structure Supply (δ : Type) where
  feeder : Feeder
  clock : EpochClock
  devices : List δ

/-- A call of the feeder, with how many devices there are and the calls that each of them gets. -/
inductive SupplyEntry where
  | toppedUp (epoch : UInt64) (now : Instant) (devices : Nat) (calls : List (List DeviceCall))
  | early (devices : Nat) (calls : List (List DeviceCall))
  | refreshed (made : Nat) (dropped : Option Item) (devices : Nat) (calls : List (List DeviceCall))

namespace SupplyEntry

def events : SupplyEntry → List FeedEvent
  | toppedUp _ _ _ calls => calls.flatten.filterMap FeedEvent.ofCall?
  | early _ _ => []
  | refreshed made dropped _ _ => [.refreshed made dropped]

/-- All devices are served, and flushed at the end of an epoch. -/
def Regular : SupplyEntry → Prop
  | toppedUp epoch now devices calls => calls.length = devices ∧ ∀ c ∈ calls, Feeder.Served epoch now c
  | early devices calls => calls = List.replicate devices []
  | refreshed _ _ devices calls => calls = List.replicate devices [.flush]

end SupplyEntry

namespace Supply

variable {δ : Type} [WorkDevice δ]

def toppedUp (s : Supply δ) (now : Instant) : Supply δ :=
  let (_, feeder, devices) := s.feeder.topUp s.clock now s.devices
  { s with feeder, devices }

def tick (s : Supply δ) (now : Instant) : Feeder.Tick δ :=
  s.feeder.tick s.clock now s.devices

def ticked (s : Supply δ) (now : Instant) : Supply δ :=
  ⟨(s.tick now).feeder, (s.tick now).clock, (s.tick now).devices⟩

def recorded (s : Supply δ) : Supply (RecordedDevice δ) :=
  ⟨s.feeder, s.clock, s.devices.map RecordedDevice.start⟩

def topUpEntry (s : Supply δ) (now : Instant) : SupplyEntry :=
  .toppedUp s.clock.current now s.devices.length ((s.recorded.toppedUp now).devices.map RecordedDevice.calls)

def tickEntry (s : Supply δ) (now : Instant) : SupplyEntry :=
  let calls := (s.recorded.tick now).devices.map RecordedDevice.calls
  match (s.recorded.tick now).outcome with
  | .fired => .refreshed s.feeder.generated s.feeder.held s.devices.length calls
  | _ => .early s.devices.length calls

/-- What can become of a supply, with the calls that lead there. A tick that finds no time left to fire in ends
the run. Between the calls the devices do as they please, so that they may answer each call in any way. -/
inductive Reached (s₀ : Supply δ) : List SupplyEntry → Supply δ → Prop
  | start : Reached s₀ [] s₀
  | topUp {log s} (now : Instant) : Reached s₀ log s → Reached s₀ (log ++ [s.topUpEntry now]) (s.toppedUp now)
  | tick {log s} (now : Instant) : Reached s₀ log s → (s.tick now).outcome ≠ .exhausted →
      Reached s₀ (log ++ [s.tickEntry now]) (s.ticked now)
  | meanwhile {log s} (devices : List δ) : Reached s₀ log s → Reached s₀ log { s with devices }

variable {s₀ s : Supply δ} {log : List SupplyEntry} {events : List FeedEvent} {now : Instant}

/-! ## Topping up -/

theorem toppedUp_recorded (s : Supply δ) (now : Instant) :
    let r := s.recorded.toppedUp now
    s.toppedUp now = ⟨r.feeder, r.clock, r.devices.map RecordedDevice.device⟩ := by
  have hrun := @Feeder.topUp_unrecorded δ _ s.clock now s.feeder (s.devices.map RecordedDevice.start)
  rw [RecordedDevice.map_device_start] at hrun
  simp only [toppedUp, hrun]
  rfl

theorem tracked_toppedUp (h : s.feeder.Tracked events s.clock) :
    (s.toppedUp now).feeder.Tracked (events ++ (s.topUpEntry now).events) (s.toppedUp now).clock := by
  rw [toppedUp_recorded]
  exact Feeder.topUp_tracked s.feeder s.devices h

theorem regular_topUpEntry : (s.topUpEntry now).Regular := by
  constructor
  · have hlength := @Feeder.topUp_length _ _ s.clock now s.feeder (s.devices.map RecordedDevice.start)
    rw [List.length_map] at hlength ⊢
    exact hlength
  · intro c hc
    obtain ⟨r, hr, rfl⟩ := List.mem_map.mp hc
    exact Feeder.topUp_served s.feeder s.devices r hr

/-! ## Ticks -/

theorem tick_recorded (s : Supply δ) (now : Instant) :
    let t := s.recorded.tick now
    s.tick now = ⟨t.outcome, t.feeder, t.clock, t.devices.map RecordedDevice.device, t.records⟩ := by
  have hrun := @Feeder.tick_unrecorded δ _ s.clock now s.feeder (s.devices.map RecordedDevice.start)
  rw [RecordedDevice.map_device_start] at hrun
  exact hrun

/-- What a tick that is not the last does, and its entry. -/
theorem tickEntry_cases (h : (s.tick now).outcome ≠ .exhausted) :
    (s.tickEntry now = .early s.devices.length (List.replicate s.devices.length []) ∧ s.ticked now = s) ∨
      s.tickEntry now = .refreshed s.feeder.generated s.feeder.held s.devices.length
        (List.replicate s.devices.length [.flush]) ∧
        ∃ nextEpoch, (s.ticked now).feeder = { s.feeder with held := none, nextEpoch } := by
  -- the entry is read off the recorded run, the supply off the plain one
  have hplain := tick_recorded s now
  rw [hplain] at h
  have hcases : s.recorded.tick now = ⟨.early, s.feeder, s.clock, s.devices.map RecordedDevice.start, []⟩ ∨
      (s.recorded.tick now).outcome = .fired ∧
        (∃ nextEpoch, (s.recorded.tick now).feeder = { s.feeder with held := none, nextEpoch }) ∧
        (s.recorded.tick now).devices = (s.devices.map RecordedDevice.start).map fun r =>
          (WorkDevice.flushAll r (s.recorded.tick now).clock now).1 :=
    Feeder.tick_cases s.feeder (s.devices.map RecordedDevice.start) h
  rw [ticked, tickEntry, hplain]
  rcases hcases with hearly | ⟨hfired, ⟨nextEpoch, hfeeder⟩, hdevices⟩
  · left
    rw [hearly]
    refine ⟨?_, congrArg (Supply.mk s.feeder s.clock) (RecordedDevice.map_device_start s.devices)⟩
    simp [Function.comp_def, RecordedDevice.start]
  · refine .inr ⟨?_, nextEpoch, hfeeder⟩
    rw [hfired, hdevices]
    simp [Function.comp_def, WorkDevice.flushAll, RecordedDevice.start]

/-! ## All calls -/

theorem Reached.tracked (h : Reached s₀ log s) (h₀ : s₀.feeder.Tracked [] s₀.clock) :
    s.feeder.Tracked (log.flatMap SupplyEntry.events) s.clock := by
  induction h with
  | start => exact h₀
  | topUp now _ ih =>
      rw [List.flatMap_append, List.flatMap_singleton]
      exact tracked_toppedUp ih
  | tick now _ hgoes ih =>
      rw [List.flatMap_append, List.flatMap_singleton]
      rcases tickEntry_cases hgoes with ⟨hentry, hsame⟩ | ⟨hentry, nextEpoch, hfeeder⟩
      · rw [hentry, hsame]
        exact (List.append_nil _).symm ▸ ih
      · rw [hentry, hfeeder]
        exact ih.refreshed _ nextEpoch
  | meanwhile devices _ ih => exact ih

theorem Reached.regular (h : Reached s₀ log s) : ∀ entry ∈ log, entry.Regular := by
  induction h with
  | start => nofun
  | topUp now _ ih => exact List.forall_mem_append.mpr ⟨ih, List.forall_mem_singleton.mpr regular_topUpEntry⟩
  | tick now _ hgoes ih =>
      refine List.forall_mem_append.mpr ⟨ih, List.forall_mem_singleton.mpr ?_⟩
      rcases tickEntry_cases hgoes with ⟨hentry, _⟩ | ⟨hentry, _⟩
      · rw [hentry]
        rfl
      · rw [hentry]
        rfl
  | meanwhile devices _ ih => exact ih

/-- What is true of all that a feeder does, whatever the devices answer, and whenever it is called. -/
theorem accounted {interval : Duration} {softRefresh : Bool} {f : Feeder} {clock : EpochClock} {devices : List δ}
    (hstart : Feeder.start? interval softRefresh now = some f) (hrun : Reached ⟨f, clock, devices⟩ log s)
    (hmade : s.feeder.generated < UInt64.size) :
    Accounted (log.flatMap SupplyEntry.events) s.feeder ∧ ∀ entry ∈ log, entry.Regular := by
  have hfirst : f.Tracked [] clock := by
    obtain ⟨nextEpoch, _, rfl⟩ := Option.map_eq_some_iff.mp hstart
    exact ⟨⟨rfl, nofun⟩, .start⟩
  exact ⟨(hrun.tracked hfirst).accounts hmade, hrun.regular⟩

/-- Two shelves are filled before and after the end of an epoch, at which the third item is dropped. -/
theorem accounted_shelves :
    ∃ (f : Feeder) (log : List SupplyEntry) (s : Supply Shelf), Feeder.start? 10 true 0 = some f ∧
      Reached ⟨f, .start 1, [.empty 1, .empty 1]⟩ log s ∧
      (FeedEvent.taken (log.flatMap SupplyEntry.events)).map Item.handle = [0, 1, 3, 4] ∧
      (FeedEvent.dropped (log.flatMap SupplyEntry.events)).map Item.handle = [2] ∧
      s.feeder.held.map Item.handle = some 5 ∧
      Accounted (log.flatMap SupplyEntry.events) s.feeder ∧ ∀ entry ∈ log, entry.Regular := by
  let f : Feeder := ⟨10, true, 10, 0, none, 0⟩
  let s₀ : Supply Shelf := ⟨f, .start 1, [.empty 1, .empty 1]⟩
  have hstart : Feeder.start? 10 true 0 = some f := rfl
  have hrun : Reached s₀ _ _ := ((Reached.start.topUp 0).tick 10 (by decide +kernel)).topUp 12
  exact ⟨f, _, _, hstart, hrun, by decide +kernel, by decide +kernel, by decide +kernel,
    accounted hstart hrun (by decide +kernel)⟩

end Supply

end Hashboard
