import Hashboard.Proofs.Traffic

/-!
# Hardware flushes

Between turns the queue knows the newest item in flight, so a caller who empties it learns whether the boards
search stale work, and a flush falls due exactly then. It stays due until a cycle ends with a reply. That
cycle sends it in front, still dispatches the records of its reply on the old table, and leaves nothing in
flight but what it has sent itself.
-/

namespace Hashboard.PollLoop

variable {s s' : PollLoop} {turn : Turn} {now : Instant} {rx : List UInt8}

/-! ## Between turns -/

/-- No cycle is on the bus, and the queue knows the newest item in flight. -/
structure Settled (s : PollLoop) : Prop where
  idle : s.running = none
  table : s.poller.table.Sound
  newest : s.queue.newestInFlight = s.poller.table.newest?

theorem settled_start (device : String) (cores : CoreMap) (interval : Nat) (epoch : UInt64) :
    (start device cores interval epoch).Settled where
  idle := rfl
  table := InFlight.sound_empty
  newest := InFlight.newest?_empty.symm

theorem Settled.step (hs : s.Settled) (h : s.turn? turn = some s') : s'.Settled := by
  rcases turn?_cases h with ⟨c, _, rfl⟩ | ⟨now, rx, _, rfl⟩ | ⟨now, error, _, rfl⟩
  · exact ⟨by simpa using hs.idle, by simpa using hs.table, by simpa using hs.newest⟩
  · exact ⟨rfl, Poller.sound_tableAfter hs.table, Poller.newestInFlight_queueAfter⟩
  · exact ⟨rfl, hs.table, newestInFlight_failed.trans hs.newest⟩

theorem Settled.newest_eq (hs : s.Settled) : s.queue.newestInFlight = s.inFlight.getLast? := by
  rw [hs.newest, hs.table.newest?_eq, inFlight, List.getLast?_map]

theorem Settled.newest_eq_none (hs : s.Settled) :
    s.queue.newestInFlight = none ↔ s.poller.table.size = 0 := by
  rw [hs.newest_eq, hs.table.size_eq, List.getLast?_eq_none_iff, List.length_eq_zero_iff, inFlight,
    List.map_eq_nil_iff]

/-- Emptying the queue tells whether the item inserted last is out of date. -/
theorem Settled.flush_iff (hs : s.Settled) (now : Instant) :
    (s.queue.flush s.clock now).1 = true ↔
      ∃ item, s.inFlight.getLast? = some item ∧ s.clock.isStale .urgent item = true := by
  rw [← hs.newest_eq]
  exact Option.any_eq_true _ _

/-! ## A flush that is due -/

/-- The turn ends a cycle with a reply. -/
def Turn.succeeds : Turn → Bool
  | .poll _ (.received _) => true
  | .poll _ _ | .call _ => false

/-- Only a cycle that ends with a reply does away with a flush that is due. -/
theorem needFlush_turn (h : s.turn? turn = some s') (ht : turn.succeeds = false)
    (hn : s.queue.needFlush = true) : s'.queue.needFlush = true := by
  rcases turn?_cases h with ⟨c, rfl, rfl⟩ | ⟨now, rx, rfl, rfl⟩ | ⟨now, error, rfl, rfl⟩
  · cases c with
    | append item => exact WorkQueue.needFlush_append.trans hn
    | prune => exact hn
    | flush now => simp [call, hn]
    | armFlush => rfl
    | advance epoch keepInFlight => exact hn
  · cases ht
  · have hf : (s.cycle now).flushing = true := hn
    simp [failed, hf, WorkQueue.armFlush]

/-- A cycle that sends a flush and gets a reply, and what it leaves behind. -/
structure Flushes (s : PollLoop) (now : Instant) (rx : List UInt8) (s' : PollLoop) : Prop where
  turned : s.turn? (.poll now (.received rx)) = some s'
  first : (s.cycle now).buffers.tx.take Wire.frameLength = Frame.flush
  /-- The records of the reply are dispatched on the table from before the flush. -/
  ended : ∃ finished outcome,
    s.poller.finish (s.cycle now) (.sound (s.begin now).queue) (.received rx) = some finished ∧
      finished.poller = s'.poller ∧ finished.queue = .sound s'.queue ∧
      finished.events = (dispatch s.poller.device s.poller.cores s.poller.table rx).events.toList ∧
      finished.result = .ok outcome ∧
      outcome.dispatch = (dispatch s.poller.device s.poller.cores s.poller.table rx).summary ∧
      outcome.transportOk = true ∧ outcome.flushed = true ∧ outcome.delay = 0
  disarmed : s'.queue.needFlush = false
  /-- The items submitted with the flush, as far as they are accepted. -/
  submitted : (s.cycle now).submissions = (s.cycle now).sent.mapIdx fun k item =>
    Frame.carried (s.poller.table.idAt k) item.work
  held : s'.inFlight = (s.cycle now).sent.take (ReplyHeader.decode rx).accepted.toNat
  size : s'.poller.table.size = min (ReplyHeader.decode rx).accepted.toNat (s.cycle now).sent.length

/-- Behind a flush the table holds the accepted items and nothing else. -/
theorem inFlight_flushed (hs : s.poller.table.Sound) (hn : s.queue.needFlush = true) (now : Instant)
    (rx : List UInt8) :
    ((s.begin now).received (s.cycle now) rx).inFlight = (s.cycle now).taken rx := by
  let rest := s.poller.table.retireAll (Reply.records rx)
  have hcleared : (s.cycle now).cleared s.poller.table rx = rest.clear := if_pos hn
  -- an empty table has ids for a whole transaction, so no item pushes another out
  have hroom : rest.clear.ids.length + ((s.cycle now).taken rx).length ≤ Wire.idSpace := by
    rw [InFlight.ids_clear, List.length_nil, Nat.zero_add]
    exact Nat.le_trans PollCycle.taken_length (Poller.begin_sent_fits s.poller s.clock now s.queue)
  have hlive := (Poller.insertAccepted_consecutive (hs.retireAll _).clear
    (InFlight.consecutive_clear rest) hroom).2.1
  rw [InFlight.live_clear, List.nil_append] at hlive
  have htable : (s.begin now).poller.tableAfter (s.cycle now) rx =
      (Poller.insertAccepted rest.clear ((s.cycle now).taken rx)).2 := by
    rw [← hcleared]
    rfl
  show ((s.begin now).poller.tableAfter (s.cycle now) rx).live.map Prod.snd = _
  rw [htable, hlive]
  exact List.map_snd_zip (by simp)

theorem Settled.flushes (hs : s.Settled) (hn : s.queue.needFlush = true) (now : Instant)
    (rx : List UInt8) : s.Flushes now rx ((s.begin now).received (s.cycle now) rx) := by
  have hf : (s.cycle now).flushing = true := hn
  have hheld := inFlight_flushed hs.table hn now rx
  have hsound : ((s.begin now).received (s.cycle now) rx).poller.table.Sound :=
    Poller.sound_tableAfter hs.table
  refine ⟨turn?_received hs.idle now rx, ?_, ?_, ?_, ?_, hheld, ?_⟩
  · rw [cycle, Poller.begin_tx, hn, Poller.flushFrames, if_pos rfl, List.singleton_append,
      List.flatten_cons, List.append_assoc]
    exact List.take_left' Frame.flush_length
  · refine ⟨_, _, rfl, Poller.finishReceived_poller, Poller.finishReceived_queue, rfl, rfl, rfl, rfl, hf,
      ?_⟩
    simp [hf]
  · simp [received, begin, Poller.begin_rest]
  · exact Poller.begin_submissions s.poller s.clock now s.queue
  · rw [hsound.size_eq, ← List.length_map Prod.snd, ← List.length_take]
    exact congrArg List.length hheld

/-! ## What the boards search afterwards -/

section Epochs

variable {s₀ : PollLoop} {past : List (Step Turn)}

/-- While the epoch does not decrease, no floor is above it. -/
theorem Reached.floor_le (h : Reached turn? s₀ past s)
    (hforward : ∀ step ∈ past, step.before.clock.current ≤ step.after.clock.current)
    (hs₀ : s₀.clock.floor ≤ s₀.clock.current) : s.clock.floor ≤ s.clock.current := by
  induction h with
  | start => exact hs₀
  | @step past s turn s' _ hstep ih =>
      have hs := ih fun step hm => hforward step (List.mem_append_left _ hm)
      have hup : s.clock.current ≤ s'.clock.current := hforward ⟨s, turn, s'⟩ (by simp)
      rcases turn?_cases hstep with ⟨c, _, rfl⟩ | ⟨now, rx, _, rfl⟩ | ⟨now, error, _, rfl⟩
      · cases c with
        | advance epoch keepInFlight =>
            cases keepInFlight with
            | true => exact UInt64.le_trans hs hup
            | false => exact UInt64.le_refl _
        | append item => exact hs
        | prune => exact hs
        | flush now => exact hs
        | armFlush => exact hs
      · exact hs
      · exact hs

/-- Only fresh items are sent. -/
theorem isStale_of_mem_sent (hfloor : s.clock.floor ≤ s.clock.current) {item : Item}
    (hi : item ∈ (s.cycle now).sent) (urgency : Urgency) : s.clock.isStale urgency item = false := by
  rw [cycle, Poller.begin_sent] at hi
  have hcurrent := WorkQueue.current_le_of_mem_freshOf (List.mem_of_mem_take hi)
  rw [EpochClock.isStale_eq_false]
  cases urgency with
  | relaxed => exact hcurrent
  | urgent => exact UInt64.le_trans hfloor hcurrent

end Epochs

/-- A flush falls due for stale work in flight, stays due, and leaves only fresh work in flight. -/
theorem flush_protocol {device : String} {cores : CoreMap} {interval : Nat} {epoch : UInt64}
    {past : List (Step Turn)} (h : Reached turn? (start device cores interval epoch) past s) :
    (s.queue.newestInFlight = s.poller.table.newest? ∧
      (s.queue.newestInFlight = none ↔ s.poller.table.size = 0)) ∧
    (∀ now,
      ((s.queue.flush s.clock now).1 = true ↔
        ∃ item, s.inFlight.getLast? = some item ∧ s.clock.isStale .urgent item = true) ∧
      (s.queue.flush s.clock now).2.needFlush =
        (s.queue.needFlush || (s.queue.flush s.clock now).1)) ∧
    (s.queue.needFlush = true → ∀ later s₁, Reached turn? s later s₁ →
      (∀ step ∈ later, step.action.succeeds = false) →
        s₁.queue.needFlush = true ∧ ∀ now rx, ∃ s₂, s₁.Flushes now rx s₂ ∧
          ((∀ step ∈ past ++ later, step.before.clock.current ≤ step.after.clock.current) →
            ∀ item ∈ s₂.inFlight, ∀ urgency, s₂.clock.isStale urgency item = false)) := by
  have hs : s.Settled := h.preserves (fun hstep hs => hs.step hstep) (settled_start _ _ _ _)
  refine ⟨⟨hs.newest, hs.newest_eq_none⟩, ?_, ?_⟩
  · intro now
    exact ⟨hs.flush_iff now, WorkQueue.needFlush_flush⟩
  · intro hn later s₁ hlater hfail
    have hs₁ : s₁.Settled := hlater.preserves (fun hstep hs => hs.step hstep) hs
    have hn₁ : s₁.queue.needFlush = true := by
      clear hs₁
      -- induction on the turns behind the one that armed the flush
      induction hlater with
      | start => exact hn
      | @step later s₁ turn s₂ _ hstep ih =>
          have hdue := ih fun step hm => hfail step (List.mem_append_left _ hm)
          exact needFlush_turn hstep (hfail ⟨s₁, turn, s₂⟩ (by simp)) hdue
    refine ⟨hn₁, ?_⟩
    intro now rx
    have hflushes := hs₁.flushes hn₁ now rx
    refine ⟨_, hflushes, ?_⟩
    intro hforward item hi urgency
    have hfloor := (h.trans hlater).floor_le hforward (UInt64.le_refl _)
    rw [hflushes.held] at hi
    exact isStale_of_mem_sent hfloor (List.mem_of_mem_take hi) urgency

/-- A flush for a stale item, a failed transfer, and the cycle behind it. -/
theorem flush_protocol_early :
    let s₀ := start "knc0" .empty Wire.pollIntervalMicros 1
    let s₁ := s₀.append early
    let s₂ := (s₁.begin 0).received (s₁.cycle 0) (receipt 1)
    let s₃ := s₂.call (.advance 2 false)
    let s₄ := s₃.call (.flush 0)
    let s₅ := (s₄.begin 0).failed (s₄.cycle 0)
    (∃ past, Reached turn? s₀ past s₄) ∧ s₄.queue.needFlush = true ∧ s₅.queue.needFlush = true ∧
      ∃ s₆, s₅.Flushes 0 (receipt 1) s₆ := by
  intro s₀ s₁ s₂ s₃ s₄ s₅
  have happend : s₀.turn? (.call (.append early)) = some s₁ := rfl
  have hpoll : s₁.turn? (.poll 0 (.received (receipt 1))) = some s₂ := turn?_received rfl 0 (receipt 1)
  have hadvance : s₂.turn? (.call (.advance 2 false)) = some s₃ := rfl
  have hempty : s₃.turn? (.call (.flush 0)) = some s₄ := rfl
  have hfailed : s₄.turn? (.poll 0 (.failed .poisoned)) = some s₅ := turn?_failed rfl 0 .poisoned
  have hlive : s₃.inFlight = [early] := by
    have hsent : (s₁.cycle 0).sent = [early] := by
      rw [cycle, Poller.begin_sent]
      rfl
    have hdue : (s₁.cycle 0).flushing = false := rfl
    have htable : s₂.poller.table = (InFlight.empty.insertNext early).2.2 := by
      have hone : [early].take (1 : UInt16).toNat = [early] := rfl
      have hempty : (s₁.begin 0).poller.table = .empty := rfl
      simp only [s₂, received, tableAfter_receipt, hsent, hdue, hone, hempty, Bool.false_eq_true, if_false,
        Poller.insertAccepted]
    rw [show s₃.inFlight = s₂.inFlight from inFlight_call s₂ _, inFlight, htable,
      InFlight.sound_empty.live_insertNext, InFlight.live_empty]
    rfl
  have h₃ := ((Reached.start.step happend).step hpoll).step hadvance
  obtain ⟨_, hflush, _⟩ := flush_protocol h₃
  have hclock : s₃.clock = ⟨2, 2⟩ := rfl
  have hstale : (s₃.queue.flush s₃.clock 0).1 = true :=
    (hflush 0).1.mpr ⟨early, by simp [hlive], by rw [hclock]; decide⟩
  have hn : s₄.queue.needFlush = true := by
    show (s₃.queue.flush s₃.clock 0).2.needFlush = true
    rw [(hflush 0).2, hstale, Bool.or_true]
  have h₄ := h₃.step hempty
  have h₅ := Reached.start.step hfailed
  obtain ⟨_, _, hdue⟩ := flush_protocol h₄
  obtain ⟨hn₅, hend⟩ := hdue hn _ _ h₅ (by simp [Turn.succeeds])
  obtain ⟨s₆, hflushes, _⟩ := hend 0 (receipt 1)
  exact ⟨⟨_, h₄⟩, hn, hn₅, s₆, hflushes⟩

end Hashboard.PollLoop
