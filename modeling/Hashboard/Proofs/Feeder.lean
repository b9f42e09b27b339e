import Mathlib.Data.List.Chain
import Hashboard.Feeder
import Hashboard.Proofs.Submission

/-!
# What a feeder offers

Devices may take or refuse what they like, so what a feeder does is told from what the devices see: a device
that writes down its calls answers like the device itself. The items that a feeder makes are numbered, and what
happens to them is a chain of events, each of which begins where the one before it ended.
-/

namespace Hashboard

/-! ## Devices that keep a record -/

/-- What a device is asked: to take an item in some epoch, with its answer, to drop all items, or to poll. -/
inductive DeviceCall where
  | offer (epoch : UInt64) (item : Item) (taken : Bool)
  | flush
  | poll (due : Instant)
  deriving DecidableEq

structure RecordedDevice (δ : Type) where
  device : δ
  calls : List DeviceCall

namespace RecordedDevice

variable {δ : Type} [WorkDevice δ]

def start (device : δ) : RecordedDevice δ :=
  ⟨device, []⟩

instance : WorkDevice (RecordedDevice δ) where
  enqueue r clock item :=
    let (taken, device) := WorkDevice.enqueue r.device clock item
    (taken, ⟨device, r.calls ++ [.offer clock.current item taken]⟩)
  flushAll r clock now :=
    let (device, records) := WorkDevice.flushAll r.device clock now
    (⟨device, r.calls ++ [.flush]⟩, records)
  pollAt r due := ⟨WorkDevice.pollAt r.device due, r.calls ++ [.poll due]⟩

@[simp] theorem calls_pollAt (r : RecordedDevice δ) (due : Instant) :
    (WorkDevice.pollAt r due).calls = r.calls ++ [.poll due] :=
  rfl

omit [WorkDevice δ] in
@[simp] theorem map_device_start (devices : List δ) : (devices.map start).map device = devices := by
  induction devices with
  | nil => rfl
  | cons device rest ih => exact congrArg (device :: ·) ih

end RecordedDevice

namespace Feeder

variable {δ : Type} [WorkDevice δ] {f : Feeder} {clock : EpochClock} {now : Instant}

theorem fill_unrecorded (room : Nat) (f : Feeder) (r : RecordedDevice δ) :
    fill clock room f r.device =
      ((fill clock room f r).1, (fill clock room f r).2.1, (fill clock room f r).2.2.device) := by
  induction room generalizing f r with
  | zero => rfl
  | succ room ih =>
      simp only [fill, WorkDevice.enqueue]
      rcases WorkDevice.enqueue r.device clock (f.next clock).1 with ⟨_ | _, device⟩
      · rfl
      · simp only []
        rw [ih _ ⟨device, _⟩]

theorem topUp_unrecorded (f : Feeder) (rs : List (RecordedDevice δ)) :
    topUp clock now f (rs.map RecordedDevice.device) =
      ((topUp clock now f rs).1, (topUp clock now f rs).2.1,
        (topUp clock now f rs).2.2.map RecordedDevice.device) := by
  induction rs generalizing f with
  | nil => rfl
  | cons r rest ih =>
      simp only [List.map_cons, topUp, fill_unrecorded topUpLimit f r, ih]
      split <;> rfl

theorem tick_unrecorded (f : Feeder) (rs : List (RecordedDevice δ)) :
    let t := tick f clock now rs
    tick f clock now (rs.map RecordedDevice.device) =
      ⟨t.outcome, t.feeder, t.clock, t.devices.map RecordedDevice.device, t.records⟩ := by
  simp only [tick]
  split
  · rfl
  · split
    · rfl
    · split <;> simp [List.map_map, List.flatMap_map, Function.comp_def, WorkDevice.flushAll]

/-- A tick that is not the last comes too early and does nothing, or has all devices flush and drops the item
that is held. -/
theorem tick_cases (f : Feeder) (devices : List δ) (h : (tick f clock now devices).outcome ≠ .exhausted) :
    let t := tick f clock now devices
    t = ⟨.early, f, clock, devices, []⟩ ∨
      t.outcome = .fired ∧ (∃ nextEpoch, t.feeder = { f with held := none, nextEpoch }) ∧
        t.devices = devices.map fun device => (WorkDevice.flushAll device t.clock now).1 := by
  intro t
  by_cases hearly : now < f.nextEpoch
  · exact .inl (if_pos hearly)
  · right
    simp only [t, tick, if_neg hearly] at h ⊢
    cases hclock : clock.next? f.softRefresh with
    | none => simp [hclock] at h
    | some clock' =>
        cases hnext : now.after? f.interval with
        | none => simp [hclock, hnext] at h
        | some nextEpoch => simp [Function.comp_def]

/-! ## Items by number -/

def itemAt (epoch : UInt64) (number : Nat) : Item :=
  ⟨number, workFor epoch (UInt64.ofNat number)⟩

theorem workFor_tail (epoch sequence : UInt64) :
    (workFor epoch sequence).tail.take 8 = Bytes.ofNatLittle 8 sequence.toNat := by
  have hlen : (Bytes.ofNatLittle 8 sequence.toNat).length = 8 := by
    rw [Bytes.ofNatLittle, List.length_reverse, Bytes.ofNat_length]
  refine List.ext_getElem? fun k => ?_
  rw [List.getElem?_take, Work.tail_getElem?]
  split
  · rename_i hk
    have hwire : k < Wire.tailLength := Nat.lt_trans hk (by decide)
    have hdata : Wire.tailOffset + k < Wire.dataLength := Nat.lt_trans (Nat.add_lt_add_left hk _) (by decide)
    simp [hwire, hdata, workFor, hk, hlen]
  · rename_i hk
    exact (List.getElem?_eq_none (by omega)).symm

/-- What distinguishes the items of a feeder also distinguishes their tails. -/
theorem itemAt_tail_ne {epoch epoch' : UInt64} {n n' : Nat} (hn : n < UInt64.size) (hn' : n' < UInt64.size)
    (hne : n ≠ n') : (itemAt epoch n).work.tail ≠ (itemAt epoch' n').work.tail := by
  intro h
  have hbytes := congrArg (List.take 8) h
  simp only [itemAt, workFor_tail, Bytes.ofNatLittle, List.reverse_inj, UInt64.toNat_ofNat_of_lt' hn,
    UInt64.toNat_ofNat_of_lt' hn'] at hbytes
  have hnumber : Bytes.toNat (Bytes.ofNat 8 n) = n := Bytes.toNat_ofNat_of_lt hn
  refine hne ?_
  rw [← hnumber, hbytes, Bytes.toNat_ofNat_of_lt hn']

/-! ## The next item -/

/-- The items are numbered in the order in which they are made, and the item that is held is the last one. -/
structure Sound (f : Feeder) (clock : EpochClock) : Prop where
  sequence : f.sequence = UInt64.ofNat f.generated
  held : ∀ item, f.held = some item →
    item = itemAt clock.current item.handle ∧ item.handle + 1 = f.generated

def cursor (f : Feeder) : Nat :=
  f.held.elim f.generated Item.handle

/-- The feeder when so many items are made and none is held. -/
def emptied (f : Feeder) (made : Nat) : Feeder :=
  { f with held := none, sequence := UInt64.ofNat made, generated := made }

theorem Sound.next_eq (h : f.Sound clock) :
    f.next clock = (itemAt clock.current f.cursor, f.emptied (f.cursor + 1)) := by
  obtain ⟨interval, soft, nextEpoch, sequence, held, generated⟩ := f
  cases held with
  | none =>
      obtain rfl : sequence = UInt64.ofNat generated := h.sequence
      simp [next, cursor, emptied, itemAt, UInt64.ofNat_add]
  | some item =>
      obtain ⟨hitem, rfl⟩ := h.held item rfl
      obtain rfl : sequence = UInt64.ofNat (item.handle + 1) := h.sequence
      simp only [next, cursor, emptied, Option.elim_some, Prod.mk.injEq, and_true]
      exact hitem

theorem Sound.emptied (made : Nat) (clock : EpochClock) : (f.emptied made).Sound clock :=
  ⟨rfl, nofun⟩

/-- The feeder after the next item is refused. -/
def refused (f : Feeder) (clock : EpochClock) : Feeder :=
  { f.emptied (f.cursor + 1) with held := some (itemAt clock.current f.cursor) }

theorem sound_refused (f : Feeder) (clock : EpochClock) : (f.refused clock).Sound clock := by
  refine ⟨rfl, ?_⟩
  rintro item ⟨⟩
  exact ⟨rfl, rfl⟩

end Feeder

/-! ## Events -/

/-- What happens to items: one is offered in some epoch, or an epoch ends and the item that is held is dropped. -/
inductive FeedEvent where
  | offered (epoch : UInt64) (item : Item) (taken : Bool)
  | refreshed (made : Nat) (dropped : Option Item)
  deriving DecidableEq

namespace FeedEvent

/-- How many items are made by the end of the event. -/
def madeAfter : FeedEvent → Nat
  | offered _ item _ => item.handle + 1
  | refreshed made _ => made

def heldAfter : FeedEvent → Option Item
  | offered _ item false => some item
  | _ => none

def taken? : FeedEvent → Option Item
  | offered _ item true => some item
  | _ => none

def dropped? : FeedEvent → Option Item
  | refreshed _ dropped => dropped
  | _ => none

/-- The item that is taken or dropped. -/
def gone? (e : FeedEvent) : Option Item :=
  e.taken? <|> e.dropped?

def taken (events : List FeedEvent) : List Item :=
  events.filterMap taken?

def dropped (events : List FeedEvent) : List Item :=
  events.filterMap dropped?

def gone (events : List FeedEvent) : List Item :=
  events.filterMap gone?

/-- What may happen when so many items are made and this one is held: only if there is none, a new one is
offered. -/
def Starts (made : Nat) (held : Option Item) : FeedEvent → Prop
  | offered _ item _ =>
    match held with
    | some held => item = held
    | none => item.handle = made
  | refreshed made' dropped => made' = made ∧ dropped = held

def Follows (e e' : FeedEvent) : Prop :=
  e'.Starts e.madeAfter e.heldAfter

/-- Items are offered in the order in which they are made, once or until they are taken; what is offered after
the end of an epoch is made after it. -/
def Before : FeedEvent → FeedEvent → Prop
  | offered _ a taken, offered _ b _ => a.handle < b.handle ∨ taken = false ∧ a = b
  | offered _ a _, refreshed made _ => a.handle < made
  | refreshed made _, offered _ b _ => made ≤ b.handle
  | refreshed made _, refreshed made' _ => made ≤ made'

/-- The event tells of items as the feeder makes them. -/
def Genuine : FeedEvent → Prop
  | offered epoch item _ => item = Feeder.itemAt epoch item.handle
  | refreshed _ dropped => ∀ item, dropped = some item → ∃ epoch, item = Feeder.itemAt epoch item.handle

/-- The events by which so many items come to be made, and this one to be held. -/
inductive Leads : List FeedEvent → (made : Nat) → (held : Option Item) → Prop
  | start : Leads [] 0 none
  | next {events made held e} : Leads events made held → Starts made held e → e.Genuine →
      Leads (events ++ [e]) e.madeAfter e.heldAfter

section Leads

variable {events : List FeedEvent} {made : Nat} {held : Option Item}

theorem Leads.last (h : Leads events made held) {e : FeedEvent} (he : events.getLast? = some e) :
    e.madeAfter = made ∧ e.heldAfter = held := by
  cases h with
  | start => cases he
  | next _ _ _ =>
      rw [List.getLast?_concat, Option.some.injEq] at he
      subst he
      exact ⟨rfl, rfl⟩

theorem Leads.chain (h : Leads events made held) : events.IsChain Follows := by
  induction h with
  | start => exact .nil
  | next hprev hstarts _ ih =>
      refine ih.append (.singleton _) ?_
      intro e he e' he'
      obtain ⟨rfl, rfl⟩ := hprev.last he
      rw [List.head?_cons, Option.mem_some_iff] at he'
      subst he'
      exact hstarts

theorem Leads.handle_held {item : Item} (h : Leads events made (some item)) : item.handle + 1 = made := by
  generalize hheld : some item = held at h
  cases h with
  | start => cases hheld
  | @next _ _ _ e _ _ _ =>
      cases e with
      | offered epoch item' taken =>
          cases taken with
          | true => cases hheld
          | false => cases hheld; rfl
      | refreshed made dropped => cases hheld

/-- The items go in the order in which they are made, the one that is held last. -/
theorem Leads.handles (h : Leads events made held) :
    (gone events ++ held.toList).map Item.handle = List.range made := by
  induction h with
  | start => rfl
  | @next events made held e hprev hstarts _ ih =>
      have hsplit : gone (events ++ [e]) ++ e.heldAfter.toList =
          gone events ++ ((gone? e).toList ++ e.heldAfter.toList) := by
        rw [gone, List.filterMap_append, List.append_assoc]
        congr 2
      -- an event adds the item it is about, whether it lets go of it or goes on holding it
      rw [hsplit]
      cases e with
      | refreshed made' dropped =>
          obtain ⟨rfl, rfl⟩ := hstarts
          have hitem : (gone? (refreshed made' dropped)).toList ++ (refreshed made' dropped).heldAfter.toList =
              dropped.toList :=
            List.append_nil _
          rw [hitem]
          exact ih
      | offered epoch item taken =>
          have hitem : (gone? (offered epoch item taken)).toList ++ (offered epoch item taken).heldAfter.toList =
              [item] := by
            cases taken <;> rfl
          rw [hitem]
          cases held with
          | some held =>
              obtain rfl : item = held := hstarts
              rw [madeAfter, hprev.handle_held]
              exact ih
          | none =>
              obtain rfl : item.handle = made := hstarts
              rw [Option.toList_none, List.append_nil] at ih
              rw [List.map_append, ih, madeAfter, List.range_succ]
              rfl

theorem Before.trans {a b c : FeedEvent} (hab : a.Before b) (hbc : b.Before c) : a.Before c := by
  cases a <;> cases b <;> cases c <;> simp only [Before] at hab hbc ⊢ <;> grind

theorem Follows.before {a b : FeedEvent} (h : a.Follows b) : a.Before b := by
  rcases a with ⟨_, a, _ | _⟩ | _ <;> cases b <;>
    simp only [Follows, Starts, heldAfter, madeAfter, Before] at h ⊢ <;> grind

instance : Trans Before Before Before :=
  ⟨Before.trans⟩

theorem Leads.order (h : Leads events made held) : events.Pairwise Before :=
  -- nothing has to be known of the events in between: what follows comes later, and that is transitive
  List.isChain_iff_pairwise.mp (h.chain.imp fun _ _ => Follows.before)

theorem Leads.genuine (h : Leads events made held) : ∀ e ∈ events, e.Genuine := by
  induction h with
  | start => nofun
  | next _ _ hgenuine ih => exact List.forall_mem_append.mpr ⟨ih, List.forall_mem_singleton.mpr hgenuine⟩

theorem taken_sublist (events : List FeedEvent) : (taken events).Sublist (gone events) := by
  induction events with
  | nil => exact .slnil
  | cons e rest ih =>
      rcases e with ⟨_, item, _ | _⟩ | ⟨_, _ | item⟩
      · exact ih
      · exact ih.cons_cons item
      · exact ih
      · exact ih.cons item

theorem gone_perm (events : List FeedEvent) : (taken events ++ dropped events).Perm (gone events) := by
  induction events with
  | nil => exact .nil
  | cons e rest ih =>
      rcases e with ⟨_, item, _ | _⟩ | ⟨_, _ | item⟩
      · exact ih
      · exact ih.cons item
      · exact ih
      · exact List.perm_middle.trans (ih.cons item)

theorem genuine_of_mem_gone (h : ∀ e ∈ events, e.Genuine) {item : Item} (hitem : item ∈ gone events) :
    ∃ epoch, item = Feeder.itemAt epoch item.handle := by
  obtain ⟨e, he, hgone⟩ := List.mem_filterMap.mp hitem
  have hgenuine := h e he
  rcases e with ⟨epoch, item', _ | _⟩ | ⟨made, dropped⟩
  · cases hgone
  · cases hgone
    exact ⟨epoch, hgenuine⟩
  · exact hgenuine item hgone

end Leads

def ofCall? : DeviceCall → Option FeedEvent
  | .offer epoch item taken => some (.offered epoch item taken)
  | _ => none

end FeedEvent

/-! ## One call of the feeder -/

namespace Feeder

variable {δ : Type} [WorkDevice δ] {f : Feeder} {clock : EpochClock} {now : Instant} {events : List FeedEvent}

/-- The feeder is where these events lead. -/
structure Tracked (events : List FeedEvent) (f : Feeder) (clock : EpochClock) : Prop where
  sound : f.Sound clock
  leads : FeedEvent.Leads events f.generated f.held

theorem Sound.starts (h : f.Sound clock) (taken : Bool) :
    FeedEvent.Starts f.generated f.held (.offered clock.current (itemAt clock.current f.cursor) taken) := by
  unfold cursor
  cases hheld : f.held with
  | none => rfl
  | some item => exact (h.held item hheld).1.symm

theorem Tracked.offered (h : Tracked events f clock) (taken : Bool) :
    FeedEvent.Leads (events ++ [.offered clock.current (itemAt clock.current f.cursor) taken]) (f.cursor + 1)
      (if taken then none else some (itemAt clock.current f.cursor)) := by
  have hnext := h.leads.next (h.sound.starts taken) rfl
  cases taken <;> exact hnext

theorem fill_tracked (room : Nat) (f : Feeder) (r : RecordedDevice δ)
    (h : Tracked (events ++ r.calls.filterMap FeedEvent.ofCall?) f clock) :
    let run := fill clock room f r
    Tracked (events ++ run.2.2.calls.filterMap FeedEvent.ofCall?) run.2.1 clock := by
  induction room generalizing f r with
  | zero => exact h
  | succ room ih =>
      -- the calls so far count as events, so the hypothesis covers the calls of the rest
      simp only [fill, WorkDevice.enqueue, h.sound.next_eq]
      rcases WorkDevice.enqueue r.device clock (itemAt clock.current f.cursor) with ⟨_ | _, device⟩
      · refine ⟨sound_refused f clock, ?_⟩
        simp only [List.filterMap_append, ← List.append_assoc]
        exact h.offered false
      · refine ih _ _ ⟨.emptied _ clock, ?_⟩
        simp only [List.filterMap_append, ← List.append_assoc]
        exact h.offered true

/-- How the calls of a device read that is filled up in some epoch: it takes items until it refuses one or the
limit is reached, and is then asked for a poll if it took something. -/
def Served (epoch : UInt64) (now : Instant) (calls : List DeviceCall) : Prop :=
  ∃ (items : List Item) (refused : Option Item),
    items.length ≤ 256 ∧ (refused = none ↔ items.length = 256) ∧
    calls = items.map (.offer epoch · true) ++ refused.toList.map (.offer epoch · false) ++
      (if items = [] then [] else [.poll now])

theorem fill_calls (room : Nat) (f : Feeder) (r : RecordedDevice δ) :
    ∃ (items : List Item) (refused : Option Item),
      (fill clock room f r).1 = items.length ∧ items.length ≤ room ∧ (refused = none ↔ items.length = room) ∧
      (fill clock room f r).2.2.calls = r.calls ++
        (items.map (.offer clock.current · true) ++ refused.toList.map (.offer clock.current · false)) := by
  induction room generalizing f r with
  | zero => exact ⟨[], none, rfl, Nat.le_refl _, by simp, (List.append_nil _).symm⟩
  | succ room ih =>
      simp only [fill, WorkDevice.enqueue]
      rcases WorkDevice.enqueue r.device clock (f.next clock).1 with ⟨_ | _, device⟩
      · exact ⟨[], some (f.next clock).1, rfl, Nat.zero_le _, by simp, rfl⟩
      · obtain ⟨items, refused, hcount, hroom, hfull, hcalls⟩ :=
          ih (f.next clock).2 ⟨device, r.calls ++ [.offer clock.current (f.next clock).1 true]⟩
        refine ⟨(f.next clock).1 :: items, refused, congrArg (· + 1) hcount, Nat.succ_le_succ hroom, ?_, ?_⟩
        · rw [hfull, List.length_cons, Nat.add_right_cancel_iff]
        · rw [hcalls, List.append_assoc]
          rfl

theorem topUp_length (f : Feeder) (devices : List δ) : (topUp clock now f devices).2.2.length = devices.length := by
  induction devices generalizing f with
  | nil => rfl
  | cons device rest ih => exact congrArg (· + 1) (ih _)

theorem topUp_served (f : Feeder) (devices : List δ) :
    ∀ r ∈ (topUp clock now f (devices.map RecordedDevice.start)).2.2, Served clock.current now r.calls := by
  induction devices generalizing f with
  | nil => nofun
  | cons device rest ih =>
      rw [List.map_cons, topUp]
      intro r hr
      rcases List.mem_cons.mp hr with rfl | hrest
      · obtain ⟨items, refused, hcount, hroom, hfull, hcalls⟩ :=
          @fill_calls δ _ clock topUpLimit f (RecordedDevice.start device)
        refine ⟨items, refused, hroom, hfull, ?_⟩
        simp only [hcount, List.length_eq_zero_iff]
        split
        · rw [hcalls, List.append_nil]
          rfl
        · rw [RecordedDevice.calls_pollAt, hcalls]
          rfl
      · exact ih _ r hrest

theorem topUp_tracked (f : Feeder) (devices : List δ) (h : Tracked events f clock) :
    let run := topUp clock now f (devices.map RecordedDevice.start)
    Tracked (events ++ (run.2.2.map RecordedDevice.calls).flatten.filterMap FeedEvent.ofCall?) run.2.1 clock := by
  induction devices generalizing f events with
  | nil =>
      show Tracked (events ++ []) f clock
      rwa [List.append_nil]
  | cons device rest ih =>
      have hfill := fill_tracked topUpLimit f (RecordedDevice.start device) (by rwa [← List.append_nil events] at h)
      have hrest := ih _ hfill
      -- a poll is no event, so it does not matter whether the device was polled
      simp only [List.map_cons, topUp, List.flatten_cons, List.filterMap_append, ← List.append_assoc]
      split
      · exact hrest
      · rw [RecordedDevice.calls_pollAt, List.filterMap_append, ← List.append_assoc]
        exact (List.append_nil _).symm ▸ hrest

theorem Tracked.refreshed (h : Tracked events f clock) (clock' : EpochClock) (nextEpoch : Instant) :
    Tracked (events ++ [.refreshed f.generated f.held]) { f with held := none, nextEpoch } clock' := by
  refine ⟨⟨h.sound.sequence, nofun⟩, ?_⟩
  refine h.leads.next ⟨rfl, rfl⟩ ?_
  intro item hitem
  exact ⟨_, (h.sound.held item hitem).1⟩

end Feeder

end Hashboard
