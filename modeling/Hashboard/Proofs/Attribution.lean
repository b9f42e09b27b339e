import Hashboard.Proofs.Receipt

/-!
# Which item a nonce is for

A lap is a cycle together with the exchange that ended it. What the boards know of an id they know from the
submission frames they accepted; the table knows ids from its own insertions. Over any run of laps the two
agree: a nonce is reported for the item whose frame was the last accepted one with that id, provided that
its search was not reported done and no flush came since (`nonce_iff`).
-/

namespace Hashboard

/-- A cycle that has ended. -/
structure Lap where
  cycle : PollCycle
  exchange : Exchange
  events : List Event

namespace Lap

/-- What the lap brought back, if anything. -/
def reply? (lap : Lap) : Option (List UInt8) :=
  match lap.exchange with
  | .received rx => some rx
  | .failed _ | .crashed => none

/-- The submission frames that the boards accepted: as many in front as the receipt says. -/
def accepted (lap : Lap) : List Frame.Submission :=
  lap.reply?.elim [] fun rx =>
    lap.cycle.submissions.take (min (ReplyHeader.decode rx).accepted.toNat lap.cycle.sent.length)

def records (lap : Lap) : List ReplyRecord :=
  lap.reply?.elim [] Reply.records

/-- The lap gives the id to the item: the boards accepted the frame of the item, and the frame carries the
id together with the item's work. -/
def Gives (lap : Lap) (id : UInt16) (item : Item) : Prop :=
  ∃ k : Nat, lap.cycle.sent[k]? = some item ∧
    lap.accepted[k]? = some ⟨id, item.work.midstate.toList, item.work.tail⟩

/-- The lap leaves the id as it was: the boards accepted no frame with it, no search under it was reported
done, and no flush was completed. -/
structure Leaves (lap : Lap) (id : UInt16) : Prop where
  accepted : ∀ frame ∈ lap.accepted, frame.id ≠ id
  records : ∀ r ∈ lap.records, ¬ r.ends id
  flush : lap.reply?.isSome → lap.cycle.flushing = false

end Lap

/-- In a history, newest lap first, with some records dispatched behind it: the item is the one that the
last accepted frame with this id was made from, and its search has not ended since. -/
def Attributed (history : List Lap) (behind : List ReplyRecord) (id : UInt16) (item : Item) : Prop :=
  ∃ later lap older, history = later ++ lap :: older ∧ lap.Gives id item ∧
    (∀ lap ∈ later, lap.Leaves id) ∧ ∀ r ∈ behind, ¬ r.ends id

namespace Poller

/-- A poller's runs, newest lap first. Whatever happens to clock and queue between the beginnings and the
ends of the cycles, and whatever the bus brings. -/
inductive Ran (p₀ : Poller) : List Lap → Poller → Prop
  | start : Ran p₀ [] p₀
  | lap {history p exchange finished} (clock : EpochClock) (now : Instant) (queue later : WorkQueue)
      (before : Ran p₀ history p)
      (ended : p.finish (p.begin clock now queue).1 (.sound later) exchange = some finished) :
      Ran p₀ (⟨(p.begin clock now queue).1, exchange, finished.events⟩ :: history) finished.poller

end Poller

variable {lap : Lap} {history : List Lap} {id : UInt16} {item : Item}

theorem attributed_cons :
    Attributed (lap :: history) [] id item ↔
      lap.Gives id item ∨ (lap.Leaves id ∧ Attributed history [] id item) := by
  constructor
  · rintro ⟨later, last, older, hsplit, hgives, hleaves, _⟩
    cases later with
    | nil =>
        cases hsplit
        exact Or.inl hgives
    | cons newest later =>
        cases hsplit
        exact Or.inr ⟨hleaves _ (by simp), later, last, older, rfl, hgives,
          fun l hl => hleaves l (by simp [hl]), by simp⟩
  · rintro (hgives | ⟨hlap, later, last, older, rfl, hgives, hleaves, _⟩)
    · exact ⟨[], lap, history, rfl, hgives, by simp, by simp⟩
    · refine ⟨lap :: later, last, older, rfl, hgives, ?_, by simp⟩
      intro l hl
      rcases List.mem_cons.mp hl with rfl | hl
      · exact hlap
      · exact hleaves l hl

theorem attributed_behind {behind : List ReplyRecord} :
    Attributed history behind id item ↔ (∀ r ∈ behind, ¬ r.ends id) ∧ Attributed history [] id item := by
  constructor
  · rintro ⟨later, last, older, hsplit, hgives, hleaves, hbehind⟩
    exact ⟨hbehind, later, last, older, hsplit, hgives, hleaves, by simp⟩
  · rintro ⟨hbehind, later, last, older, hsplit, hgives, hleaves, _⟩
    exact ⟨later, last, older, hsplit, hgives, hleaves, hbehind⟩

namespace Poller

variable {p p₀ : Poller} {clock : EpochClock} {now : Instant} {queue : WorkQueue}

/-! ## One lap -/

section Received

variable {rx : List UInt8} {events : List Event}

/-- The frames accepted in a lap are those of the items taken, each under the id that the table gives it. -/
theorem accepted_eq :
    (Lap.mk (p.begin clock now queue).1 (.received rx) events).accepted =
      ((p.begin clock now queue).1.taken rx).mapIdx fun k item =>
        ⟨p.table.idAt k, item.work.midstate.toList, item.work.tail⟩ := by
  simp only [Lap.accepted, Lap.reply?, Option.elim_some, begin_submissions, PollCycle.taken,
    Frame.carried, InFlight.idAt_masked]
  refine List.ext_getElem? ?_
  intro k
  simp only [List.getElem?_take, List.getElem?_mapIdx, Nat.lt_min]
  by_cases hk : k < (p.begin clock now queue).1.sent.length
  · simp only [hk, and_true]
    split <;> rfl
  · simp [hk]

theorem gives_iff :
    (Lap.mk (p.begin clock now queue).1 (.received rx) events).Gives id item ↔
      ∃ k : Nat, ((p.begin clock now queue).1.taken rx)[k]? = some item ∧ p.table.idAt k = id := by
  unfold Lap.Gives
  refine exists_congr ?_
  intro k
  rw [accepted_eq, List.getElem?_mapIdx, PollCycle.taken, List.getElem?_take]
  split
  · constructor
    · rintro ⟨hk, hf⟩
      simp only [hk, Option.map_some, Option.some.injEq, Frame.Submission.mk.injEq] at hf
      exact ⟨hk, hf.1⟩
    · rintro ⟨hk, hid⟩
      exact ⟨hk, by simp [hk, hid]⟩
  · simp

theorem leaves_iff :
    (Lap.mk (p.begin clock now queue).1 (.received rx) events).Leaves id ↔
      (∀ k, k < ((p.begin clock now queue).1.taken rx).length → p.table.idAt k ≠ id) ∧
        (∀ r ∈ Reply.records rx, ¬ r.ends id) ∧ (p.begin clock now queue).1.flushing = false := by
  have hframes : (∀ frame ∈ (Lap.mk (p.begin clock now queue).1 (.received rx) events).accepted,
      frame.id ≠ id) ↔
        ∀ k, k < ((p.begin clock now queue).1.taken rx).length → p.table.idAt k ≠ id := by
    simp only [accepted_eq, List.mem_mapIdx, forall_exists_index]
    constructor
    · intro h k hk
      exact h _ k hk rfl
    · rintro h _ k hk rfl
      exact h k hk
  constructor
  · rintro ⟨hf, hrecords, hflush⟩
    exact ⟨hframes.mp hf, hrecords, hflush rfl⟩
  · rintro ⟨hids, hrecords, hflush⟩
    exact ⟨hframes.mpr hids, hrecords, fun _ => hflush⟩

/-- A lap with a reply changes who holds an id just as it changes whom the boards know under it. -/
theorem get?_tableAfter (h : p.table.Sound) :
    (p.tableAfter (p.begin clock now queue).1 rx).get? id = some item ↔
      (Lap.mk (p.begin clock now queue).1 (.received rx) events).Gives id item ∨
        ((Lap.mk (p.begin clock now queue).1 (.received rx) events).Leaves id ∧
          p.table.get? id = some item) := by
  have hlen : ((p.begin clock now queue).1.taken rx).length ≤ Wire.idSpace :=
    Nat.le_trans PollCycle.taken_length (begin_sent_fits p clock now queue)
  rw [tableAfter, get?_insertAccepted (PollCycle.sound_cleared h) hlen, gives_iff, leaves_iff,
    PollCycle.get?_cleared]
  simp only [PollCycle.idAt_cleared]
  refine or_congr_right ?_
  constructor
  · rintro ⟨hids, hget⟩
    split at hget
    · cases hget
    · rename_i hkept
      rw [not_or, Bool.not_eq_true, not_exists] at hkept
      exact ⟨⟨hids, fun r hr he => hkept.2 r ⟨hr, he⟩, hkept.1⟩, hget⟩
  · rintro ⟨⟨hids, hrecords, hflush⟩, hget⟩
    refine ⟨hids, ?_⟩
    rw [if_neg, hget]
    rintro (hf | ⟨r, hr, he⟩)
    · simp [hflush] at hf
    · exact hrecords r hr he

end Received

theorem leaves_failed {error : BusError} {cycle : PollCycle} {events : List Event} :
    (Lap.mk cycle (.failed error) events).Leaves id where
  accepted := by simp [Lap.accepted, Lap.reply?]
  records := by simp [Lap.records, Lap.reply?]
  flush := by simp [Lap.reply?]

theorem not_gives_failed {error : BusError} {cycle : PollCycle} {events : List Event} :
    ¬ (Lap.mk cycle (.failed error) events).Gives id item := by
  rintro ⟨k, _, hk⟩
  simp [Lap.accepted, Lap.reply?] at hk

/-! ## Whole runs -/

/-- Every lap can end with any reply. -/
theorem Ran.received (h : Ran p₀ history p) (clock : EpochClock) (now : Instant) (queue later : WorkQueue)
    (rx : List UInt8) :
    Ran p₀ (⟨(p.begin clock now queue).1, .received rx, p.table.eventsOf p.cores (Reply.records rx)⟩ :: history)
      { p with table := p.tableAfter (p.begin clock now queue).1 rx } := by
  have hlap := Ran.lap clock now queue later h (show p.finish _ _ (.received rx) = _ from rfl)
  rwa [finishReceived_poller, finishReceived_events] at hlap

/-- What holds after every run: the table knows under each id just the item that the boards know. -/
structure Traced (cores : CoreMap) (history : List Lap) (p : Poller) : Prop where
  table : p.table.Sound
  cores : p.cores = cores
  holds : ∀ id item, p.table.get? id = some item ↔ Attributed history [] id item

variable {device : String} {cores : CoreMap} {interval : Nat}

theorem traced_start : Traced cores [] (start device cores interval) where
  table := InFlight.sound_empty
  cores := rfl
  holds := by
    intro id item
    have hnone : (start device cores interval).table.get? id = none := by
      simp [start, InFlight.empty, InFlight.get?]
    simp [hnone, Attributed]

theorem Ran.traced (h : Ran (Poller.start device cores interval) history p) : Traced cores history p := by
  induction h with
  | start => exact traced_start
  | @lap history p exchange finished clock now queue later _ ended ih =>
      cases exchange with
      | received rx =>
          obtain rfl := Option.some.inj ended
          refine ⟨?_, ?_, ?_⟩
          · rw [finishReceived_poller]
            exact sound_tableAfter ih.table
          · rw [finishReceived_poller]
            exact ih.cores
          · intro id item
            rw [finishReceived_poller, get?_tableAfter ih.table, attributed_cons, ih.holds]
      | failed error =>
          obtain rfl := Option.some.inj ended
          rw [finishFailed_poller]
          refine ⟨ih.table, ih.cores, ?_⟩
          intro id item
          rw [attributed_cons, ih.holds]
          simp [leaves_failed, not_gives_failed]
      | crashed => cases ended

theorem Traced.holds_behind (h : Traced cores history p) {behind : List ReplyRecord} :
    (p.table.retireAll behind).get? id = some item ↔ Attributed history behind id item := by
  rw [InFlight.get?_retireAll, attributed_behind, ← h.holds]
  by_cases hends : ∃ r ∈ behind, r.ends id
  · rw [if_pos hends]
    obtain ⟨r, hr, he⟩ := hends
    simp only [reduceCtorEq, false_iff, not_and]
    intro hall
    exact absurd he (hall r hr)
  · rw [if_neg hends]
    simp only [not_exists, not_and] at hends
    exact (and_iff_right hends).symm

/-- Each record of a reply brings one event. A nonce is reported for an item if and only if its core is on
the map and the item is the one that the boards know under its id by then; otherwise it is reported as a
hardware error. -/
theorem nonce_iff {lap : Lap} {rx : List UInt8}
    (h : Ran (start device cores interval) (lap :: history) p) (hrx : lap.exchange = .received rx)
    {j : Nat} {r : ReplyRecord} (hr : (Reply.records rx)[j]? = some r) (hkind : r.kind = .nonce) :
    lap.events.length = (Reply.records rx).length ∧
      (∀ core item, lap.events[j]? = some (.nonce core item r.nonce) ↔
        cores.resolve r.address = some core ∧
          Attributed history ((Reply.records rx).take j) r.id item) ∧
      ((¬ ∃ core item, cores.resolve r.address = some core ∧
          Attributed history ((Reply.records rx).take j) r.id item) →
        lap.events[j]? = some (.hardwareError (cores.resolve r.address) (some r.nonce))) := by
  cases h with
  | @lap _ p exchange finished clock now queue later before ended =>
      have hp := before.traced
      obtain rfl : exchange = .received rx := hrx
      obtain rfl := Option.some.inj ended
      have hevent : (p.table.eventsOf p.cores (Reply.records rx))[j]? =
          some ((p.table.retireAll ((Reply.records rx).take j)).eventOf cores r) := by
        rw [InFlight.eventsOf_getElem?, hr, hp.cores]
        rfl
      simp only [finishReceived_events, InFlight.eventsOf_length, hevent, Option.some.injEq,
        InFlight.eventOf_nonce hkind, hp.holds_behind, implies_true, true_and]
      intro hnone
      refine InFlight.eventOf_error hkind ?_
      simpa only [hp.holds_behind] using hnone

/-- One item, accepted in the first lap and answered with a nonce in the second. -/
theorem nonce_iff_single :
    let item : Item := ⟨0, .replicate Wire.midstateLength 0, .replicate Wire.dataLength 0, 1⟩
    let found : ReplyRecord := ⟨.nonce, ⟨0, 0⟩, 0, 77⟩
    ∃ lap₁ lap₂ p,
      Ran (start "knc0" (CoreMap.empty.register 0 [3]).2 Wire.pollIntervalMicros) [lap₂, lap₁] p ∧
        lap₂.exchange = .received (Reply.write Wire.transactionLength ⟨false, 0⟩ [found]) ∧
        lap₂.events[0]? = some (.nonce ⟨0⟩ item 77) := by
  intro item found
  let p₀ := start "knc0" (CoreMap.empty.register 0 [3]).2 Wire.pollIntervalMicros
  let queue := (WorkQueue.empty.append (.start 1) item).2
  have hlen : Wire.headerLength ≤ Wire.transactionLength := by decide
  have h₁ := (Ran.start : Ran p₀ [] p₀).received (.start 1) 0 queue queue
    (Reply.write Wire.transactionLength ⟨false, 1⟩ [])
  have h₂ := h₁.received (.start 1) 0 .empty .empty
    (Reply.write Wire.transactionLength ⟨false, 0⟩ [found])
  refine ⟨_, _, _, h₂, rfl, ?_⟩
  have hrecords : Reply.records (Reply.write Wire.transactionLength ⟨false, 0⟩ [found]) = [found] := by
    rw [Reply.records_write hlen]
    decide
  refine ((nonce_iff h₂ rfl (j := 0) (by rw [hrecords]; rfl) rfl).2.1 ⟨0⟩ item).mpr ⟨by decide, ?_⟩
  refine ⟨[], _, [], rfl, gives_iff.mpr ⟨0, ?_, by decide⟩, by simp, by simp⟩
  rw [PollCycle.taken, begin_sent, Reply.decode_write hlen]
  rfl

end Poller

end Hashboard
