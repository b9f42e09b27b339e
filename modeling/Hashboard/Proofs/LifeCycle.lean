import Hashboard.Device
import Hashboard.Proofs.PollLoop

/-!
# The life of a device

The queue of a device outlives its sessions; the table of a session does not. So a device that is stopped must
forget what it knew of the boards, and one that is started brings them up anew. In between, the loop and the
callers take turns in any order: a call may fall into a transaction or between two of them.
-/

namespace Hashboard

/-! ## The end of a cycle whose queue is sound -/

namespace Poller

variable {p : Poller} {q : WorkQueue} {exchange : Exchange}

/-- Unless the bus crashes, a cycle ends with an outcome, and with a queue that knows its table. -/
theorem finish_sound (cycle : PollCycle) (hx : exchange ≠ .crashed) (hq : q.newestInFlight = p.table.newest?) :
    ∃ finished q' outcome, p.finish cycle (.sound q) exchange = some finished ∧
      finished.queue = .sound q' ∧ finished.result = .ok outcome ∧
      q'.newestInFlight = finished.poller.table.newest? := by
  cases exchange with
  | crashed => exact absurd rfl hx
  | received rx =>
      refine ⟨_, _, _, rfl, finishReceived_queue, rfl, ?_⟩
      rw [newestInFlight_queueAfter, finishReceived_poller]
  | failed error =>
      have hresult : ∃ outcome, (p.finishFailed cycle error (.sound q)).result = .ok outcome := by
        unfold finishFailed
        cases cycle.flushing <;> exact ⟨_, rfl⟩
      obtain ⟨outcome, hresult⟩ := hresult
      refine ⟨_, _, outcome, rfl, finishFailed_queue, hresult, ?_⟩
      rw [finishFailed_poller, ← hq]
      split <;> rfl

end Poller

namespace Device

variable {d : Device} {health : TransferHealth} {finished : PollFinished} {outcome : PollOutcome}

theorem settleCycle_ok (h : finished.result = .ok outcome) :
    (d.settleCycle health finished).1 =
      { d with
        queue := finished.queue
        mailbox := d.mailbox.putAll finished.events
        phase := .waiting finished.poller (health.record outcome.transportOk).1 } := by
  simp only [settleCycle, h]

/-- A stopped device that can be brought up gets a loop with an empty table. -/
theorem launch_received {q : WorkQueue} (hphase : d.phase = .stopped) (hname : canName d.name = true)
    (hq : d.queue = .sound q) (now : Instant) (rx : List UInt8) :
    d.launch now (.received rx) = (some (.ok ()),
      { d with
        queue := .sound (q.requestPoll now)
        phase := .waiting (.start d.name d.cores d.interval) .good },
      [.poll (.bringingUp d.name), .started d.name d.bus d.cores.size d.cores.enabledCount]) := by
  simp only [launch, hphase, Poller.bringUp, hq, hname, if_true, List.cons_append, List.nil_append]

end Device

/-! ## Devices among their callers -/

/-- Who has the bus of a device. -/
inductive Holder where
  | device
  | loop

def Phase.holder? : Phase → Option Holder
  | .stopped => some .device
  | .waiting .. | .polling .. | .ended => some .loop
  | .crashed | .abandoned | .lost => none

def Phase.poller? : Phase → Option Poller
  | .waiting poller _ | .polling poller _ _ => some poller
  | _ => none

/-- A device and the clock of its callers. -/
structure Life where
  clock : EpochClock
  device : Device

namespace Life

def create (name bus : String) (cores : CoreMap) (interval : Nat) (clock : EpochClock) : Life :=
  ⟨clock, .create name bus cores interval⟩

/-- A call of the device, or a step of its loop, which begins a cycle or ends one. -/
inductive Act where
  | setClock (clock : EpochClock)
  | attachReceiver
  | enqueue (item : Item)
  | flushAll (now : Instant)
  | pollAt (due : Instant)
  | start (now : Instant) (exchange : Exchange)
  | stop (now : Instant) (exchange : Exchange)
  | begin (now : Instant)
  | finish (exchange : Exchange)

/-- The device after an act: none if the bus crashes. -/
def act? (s : Life) : Act → Option Life
  | .setClock clock => some { s with clock }
  | .attachReceiver => some { s with device := s.device.attachReceiver }
  | .enqueue item => some { s with device := (s.device.enqueue s.clock item).2 }
  | .flushAll now => some { s with device := (s.device.flushAll s.clock now).1 }
  | .pollAt due => some { s with device := s.device.pollAt due }
  | .start now exchange =>
    if exchange = .crashed then none else some { s with device := (s.device.launch now exchange).2.1 }
  | .stop now exchange =>
    if exchange = .crashed then none else some { s with device := (s.device.stop s.clock now exchange).1 }
  | .begin now => some { s with device := (s.device.turn s.clock now).1 }
  | .finish exchange =>
    if exchange = .crashed then none else some { s with device := (s.device.finish exchange).1 }

def run? (s : Life) (acts : List Act) : Option Life :=
  acts.foldlM act? s

theorem run?_nil {s : Life} : s.run? [] = some s := rfl

theorem run?_cons {s : Life} {act : Act} {acts : List Act} :
    s.run? (act :: acts) = (s.act? act).bind fun s' => s'.run? acts :=
  List.foldlM_cons

theorem run?_append {s : Life} {acts more : List Act} :
    s.run? (acts ++ more) = (s.run? acts).bind fun s' => s'.run? more :=
  List.foldlM_append

/-! ## What a life keeps to -/

/-- The queue of a stopped device knows of no work on the boards and has no flush due; the queue of a started
one knows the table of its session. -/
inductive Coherent (name bus : String) (cores : CoreMap) (interval : Nat) : Life → Prop where
  | stopped {clock mailbox q} (calm : q.needFlush = false) (newest : q.newestInFlight = none) :
      Coherent name bus cores interval ⟨clock, ⟨name, bus, cores, interval, .sound q, mailbox, .stopped⟩⟩
  | waiting {clock mailbox q poller health} (newest : q.newestInFlight = poller.table.newest?) :
      Coherent name bus cores interval
        ⟨clock, ⟨name, bus, cores, interval, .sound q, mailbox, .waiting poller health⟩⟩
  | polling {clock mailbox q poller cycle health} (newest : q.newestInFlight = poller.table.newest?) :
      Coherent name bus cores interval
        ⟨clock, ⟨name, bus, cores, interval, .sound q, mailbox, .polling poller cycle health⟩⟩

variable {name bus : String} {cores : CoreMap} {interval : Nat} {s s' : Life} {now : Instant}
  {exchange : Exchange}

theorem coherent_create (clock : EpochClock) :
    Coherent name bus cores interval (create name bus cores interval clock) :=
  .stopped rfl rfl

theorem Coherent.sound (hs : Coherent name bus cores interval s) : ∃ q, s.device.queue = .sound q := by
  cases hs with
  | stopped => exact ⟨_, rfl⟩
  | waiting => exact ⟨_, rfl⟩
  | polling => exact ⟨_, rfl⟩

/-- A call changes the queue alone. It may arm a flush only if the queue knows of work on the boards. -/
theorem Coherent.call (hs : Coherent name bus cores interval s) {f : WorkQueue → WorkQueue}
    (hnewest : ∀ q, (f q).newestInFlight = q.newestInFlight)
    (hcalm : ∀ q, q.newestInFlight = none → (f q).needFlush = q.needFlush) {q : WorkQueue}
    (hq : s.device.queue = .sound q) :
    Coherent name bus cores interval { s with device := { s.device with queue := .sound (f q) } } := by
  cases hs with
  | stopped calm newest =>
      cases hq
      exact .stopped ((hcalm _ newest).trans calm) ((hnewest _).trans newest)
  | waiting newest =>
      cases hq
      exact .waiting ((hnewest _).trans newest)
  | polling newest =>
      cases hq
      exact .polling ((hnewest _).trans newest)

theorem Coherent.enqueue (hs : Coherent name bus cores interval s) (item : Item) :
    Coherent name bus cores interval { s with device := (s.device.enqueue s.clock item).2 } := by
  obtain ⟨q, hq⟩ := hs.sound
  have h := hs.call (f := fun q => (q.append s.clock item).2) (fun _ => WorkQueue.newestInFlight_append)
    (fun _ _ => WorkQueue.needFlush_append) hq
  rw [Device.enqueue, hq]
  exact h

theorem Coherent.flushAll (hs : Coherent name bus cores interval s) (now : Instant) :
    Coherent name bus cores interval { s with device := (s.device.flushAll s.clock now).1 } := by
  obtain ⟨q, hq⟩ := hs.sound
  have hcalm : ∀ q : WorkQueue, q.newestInFlight = none →
      (q.flush s.clock now).2.needFlush = q.needFlush := by
    intro q hnewest
    rw [WorkQueue.needFlush_flush, WorkQueue.inFlightIsStale_of_none hnewest, Bool.or_false]
  have h := hs.call (f := fun q => (q.flush s.clock now).2) (fun _ => WorkQueue.newestInFlight_flush)
    hcalm hq
  rw [Device.flushAll, hq]
  exact h

theorem Coherent.pollAt (hs : Coherent name bus cores interval s) (due : Instant) :
    Coherent name bus cores interval { s with device := s.device.pollAt due } := by
  obtain ⟨q, hq⟩ := hs.sound
  have h := hs.call (f := fun q => q.requestPoll due) (fun _ => rfl) (fun _ _ => rfl) hq
  rw [Device.pollAt, hq]
  exact h

theorem Coherent.attachReceiver (hs : Coherent name bus cores interval s) :
    Coherent name bus cores interval { s with device := s.device.attachReceiver } := by
  cases hs with
  | stopped calm newest => exact .stopped calm newest
  | waiting newest => exact .waiting newest
  | polling newest => exact .polling newest

theorem Coherent.setClock (hs : Coherent name bus cores interval s) (clock : EpochClock) :
    Coherent name bus cores interval { s with clock } := by
  cases hs with
  | stopped calm newest => exact .stopped calm newest
  | waiting newest => exact .waiting newest
  | polling newest => exact .polling newest

theorem Coherent.turn (hs : Coherent name bus cores interval s) (now : Instant) :
    Coherent name bus cores interval { s with device := (s.device.turn s.clock now).1 } := by
  cases hs with
  | stopped calm newest => exact .stopped calm newest
  | waiting newest => exact .polling newest
  | polling newest => exact .polling newest

/-- A loop that begins a cycle has it on the bus. -/
theorem Coherent.turn_started (hs : Coherent name bus cores interval s) (hstarted : s.device.started = true)
    (now : Instant) : (s.device.turn s.clock now).1.transaction?.isSome = true := by
  cases hs with
  | stopped => cases hstarted
  | waiting => rfl
  | polling => rfl

theorem Coherent.finish (hs : Coherent name bus cores interval s) (hx : exchange ≠ .crashed) :
    Coherent name bus cores interval { s with device := (s.device.finish exchange).1 } ∧
      (s.device.finish exchange).1.started = s.device.started := by
  cases hs with
  | stopped calm newest => exact ⟨.stopped calm newest, rfl⟩
  | waiting newest => exact ⟨.waiting newest, rfl⟩
  | @polling clock mailbox q poller cycle health newest =>
      -- whatever becomes of the exchange, the queue knows the table that the cycle leaves
      obtain ⟨finished, q', outcome, hfinish, hqueue, hresult, hnewest⟩ :=
        Poller.finish_sound cycle hx newest
      simp only [Device.finish, hfinish, Device.settleCycle_ok hresult, hqueue]
      exact ⟨.waiting hnewest, rfl⟩

theorem Coherent.launch (hs : Coherent name bus cores interval s) (hname : Device.canName name = true)
    (hx : exchange ≠ .crashed) (now : Instant) :
    Coherent name bus cores interval { s with device := (s.device.launch now exchange).2.1 } := by
  cases hs with
  | stopped calm newest =>
      cases exchange with
      | received rx =>
          rw [Device.launch_received rfl hname rfl]
          exact .waiting (newest.trans InFlight.newest?_empty.symm)
      | failed error => exact .stopped calm newest
      | crashed => exact absurd rfl hx
  | waiting newest => exact .waiting newest
  | polling newest => exact .polling newest

/-- Stopping a device whose loop is there brings its bus back, whatever becomes of the transaction. -/
theorem Coherent.stop_started (hs : Coherent name bus cores interval s) (hstarted : s.device.started = true)
    (hx : exchange ≠ .crashed) (now : Instant) :
    ∃ q mailbox, (s.device.stop s.clock now exchange).1 =
        ⟨name, bus, cores, interval, .sound q, mailbox, .stopped⟩ ∧
      q.items = #[] ∧ q.needFlush = false ∧ q.newestInFlight = none := by
  cases hs with
  | stopped => cases hstarted
  | waiting => exact ⟨_, _, rfl, WorkQueue.items_flush, rfl, rfl⟩
  | @polling clock mailbox q poller cycle health newest =>
      obtain ⟨finished, q₁, outcome, hfinish, hqueue, hresult, _⟩ :=
        Poller.finish_sound cycle hx newest
      refine ⟨((q₁.flush clock now).2.disarmFlush).setNewestInFlight none,
        mailbox.putAll finished.events, ?_, WorkQueue.items_flush, rfl, rfl⟩
      simp only [Device.stop, Device.started, if_true, Device.joinLoop, Device.finish, hfinish,
        Device.settleCycle_ok hresult, hqueue, Device.clearQueue]

theorem Coherent.stop (hs : Coherent name bus cores interval s) (hx : exchange ≠ .crashed) (now : Instant) :
    Coherent name bus cores interval { s with device := (s.device.stop s.clock now exchange).1 } ∧
      (s.device.stop s.clock now exchange).1.started = false := by
  cases hstarted : s.device.started with
  | false =>
      cases hs with
      | stopped calm newest => exact ⟨.stopped calm newest, rfl⟩
      | waiting => cases hstarted
      | polling => cases hstarted
  | true =>
      obtain ⟨q, mailbox, hstop, _, hcalm, hnewest⟩ := hs.stop_started hstarted hx now
      rw [hstop]
      exact ⟨.stopped hcalm hnewest, rfl⟩

theorem Coherent.act (hs : Coherent name bus cores interval s) (hname : Device.canName name = true) {act : Act}
    (h : s.act? act = some s') : Coherent name bus cores interval s' := by
  cases act with
  | setClock clock => exact Option.some.inj h ▸ hs.setClock clock
  | attachReceiver => exact Option.some.inj h ▸ hs.attachReceiver
  | enqueue item => exact Option.some.inj h ▸ hs.enqueue item
  | flushAll now => exact Option.some.inj h ▸ hs.flushAll now
  | pollAt due => exact Option.some.inj h ▸ hs.pollAt due
  | start now exchange =>
      obtain ⟨hx, hs'⟩ := Option.ite_none_left_eq_some.mp h
      exact Option.some.inj hs' ▸ hs.launch hname hx now
  | stop now exchange =>
      obtain ⟨hx, hs'⟩ := Option.ite_none_left_eq_some.mp h
      exact Option.some.inj hs' ▸ (hs.stop hx now).1
  | begin now => exact Option.some.inj h ▸ hs.turn now
  | finish exchange =>
      obtain ⟨hx, hs'⟩ := Option.ite_none_left_eq_some.mp h
      exact Option.some.inj hs' ▸ (hs.finish hx).1

theorem Coherent.run (hs : Coherent name bus cores interval s) (hname : Device.canName name = true)
    {acts : List Act} (h : s.run? acts = some s') : Coherent name bus cores interval s' := by
  induction acts generalizing s with
  | nil =>
      cases h
      exact hs
  | cons act acts ih =>
      obtain ⟨s₁, hact, hrest⟩ := Option.bind_eq_some_iff.mp (run?_cons.symm.trans h)
      exact ih (hs.act hname hact) hrest

/-! ## Stopped and started devices -/

/-- A stopped device has its bus. It stays as it is if it is stopped again, or if it does not come up; no flush
can be armed; and it is started by a transaction that brings up the boards, with an empty table. -/
structure Idle (s : Life) : Prop where
  holder : s.device.phase.holder? = some .device
  started : s.device.started = false
  stop : ∀ now exchange, s.device.stop s.clock now exchange = (s.device, [])
  fails : ∀ now error,
    let kept := (some (.error (.poll (.bringUpFailed s.device.name error))), s.device,
      [.poll (.bringingUp s.device.name)])
    s.device.launch now (.failed error) = kept ∧ s.device.start s.clock now (.failed error) = kept
  flushAll : ∃ q, s.device.queue = .sound q ∧ q.needFlush = false ∧ q.newestInFlight = none ∧
    ∀ now, (s.device.flushAll s.clock now).2 = [] ∧ ∃ q',
      (s.device.flushAll s.clock now).1.queue = .sound q' ∧ q'.needFlush = false
  bringUp : s.device.bringUpTransaction? = some (0x30 :: List.replicate 4095 0x04)
  /-- Once it is up, its loop waits for the first cycle, which may begin at once. -/
  opens : ∀ now rx, ∃ s₁ s₂ poller cycle,
    (s.device.launch now (.received rx)).1 = some (.ok ()) ∧
      s.act? (.start now (.received rx)) = some s₁ ∧ s₁.device.started = true ∧
      s₁.device.phase = .waiting poller .good ∧ poller.table = .empty ∧ poller.table.nextId = 0 ∧
    (s.device.start s.clock now (.received rx)).1 = some (.ok ()) ∧
      s₁.act? (.begin now) = some s₂ ∧ s₂.device = (s.device.start s.clock now (.received rx)).2.1 ∧
      s₂.device.phase = .polling poller cycle .good
  opened : ∀ act s', s.act? act = some s' → s'.device.started = true →
    ∃ now rx, act = .start now (.received rx)

/-- The loop of a started device has the bus. Starting it again changes nothing, and its transactions go on. Its
queue knows its table until it is stopped; then it is empty, and forgets. -/
structure Busy (s : Life) : Prop where
  holder : s.device.phase.holder? = some .loop
  started : s.device.started = true
  start : ∀ now exchange, s.device.launch now exchange = (some (.ok ()), s.device, []) ∧
    s.device.start s.clock now exchange = (some (.ok ()), s.device, [])
  newest : ∃ poller q, s.device.phase.poller? = some poller ∧ s.device.queue = .sound q ∧
    q.newestInFlight = poller.table.newest?
  reply : ∀ now exchange, exchange ≠ .crashed → ∃ s₁ s₂, s.act? (.finish exchange) = some s₁ ∧
    s₁.act? (.begin now) = some s₂ ∧ s₂.device = (s.device.reply s.clock now exchange).1 ∧
    s₂.device.transaction?.isSome = true
  stop : ∀ now exchange, exchange ≠ .crashed → ∃ s' q, s.act? (.stop now exchange) = some s' ∧
    s'.device.phase = .stopped ∧ s'.device.queue = .sound q ∧
    q.items = #[] ∧ q.needFlush = false ∧ q.newestInFlight = none

theorem bringUp_tx : Poller.bringUpBuffers.tx = 0x30 :: List.replicate 4095 0x04 := by
  have hfit : Frame.bringUp.length ≤ Wire.transactionLength := by decide
  exact ((Buffers.holds_empty Wire.transactionLength).emit hfit).2.tx

theorem Coherent.opened (hs : Coherent name bus cores interval s) (hstopped : s.device.started = false)
    {act : Act} (h : s.act? act = some s') (hstarted : s'.device.started = true) :
    ∃ now rx, act = .start now (.received rx) := by
  cases hs with
  | waiting => cases hstopped
  | polling => cases hstopped
  | stopped calm newest =>
      cases act with
      | start now exchange =>
          cases exchange with
          | received rx => exact ⟨now, rx, rfl⟩
          | failed error =>
              cases h
              exact absurd hstarted Bool.false_ne_true
          | crashed => cases h
      | stop now exchange =>
          obtain ⟨_, hs'⟩ := Option.ite_none_left_eq_some.mp h
          cases hs'
          exact absurd hstarted Bool.false_ne_true
      | finish exchange =>
          obtain ⟨_, hs'⟩ := Option.ite_none_left_eq_some.mp h
          cases hs'
          exact absurd hstarted Bool.false_ne_true
      | setClock | attachReceiver | enqueue | flushAll | pollAt | begin =>
          cases h
          exact absurd hstarted Bool.false_ne_true

theorem Coherent.idle (hs : Coherent name bus cores interval s) (hname : Device.canName name = true)
    (hstopped : s.device.started = false) : s.Idle := by
  have hopened := fun act s' (h : s.act? act = some s') => hs.opened hstopped h
  cases hs with
  | waiting => cases hstopped
  | polling => cases hstopped
  | @stopped clock mailbox q calm newest =>
      refine ⟨rfl, rfl, fun _ _ => rfl, fun _ _ => ⟨rfl, rfl⟩, ?_, congrArg some bringUp_tx, ?_, hopened⟩
      · refine ⟨q, rfl, calm, newest, ?_⟩
        intro now
        have hunarmed : (q.flush clock now).1 = false := WorkQueue.inFlightIsStale_of_none newest
        have hcalm : (q.flush clock now).2.needFlush = false := by
          rw [WorkQueue.needFlush_flush, calm, WorkQueue.inFlightIsStale_of_none newest]
          rfl
        refine ⟨?_, _, rfl, hcalm⟩
        simp only [Device.flushAll, hunarmed]
        rfl
      · intro now rx
        let poller : Poller := .start name cores interval
        let cycle := (poller.begin clock now (q.requestPoll now)).1
        let up : Device :=
          ⟨name, bus, cores, interval, .sound (q.requestPoll now), mailbox, .waiting poller .good⟩
        refine ⟨⟨clock, up⟩, ⟨clock, (up.turn clock now).1⟩, poller, cycle, ?_⟩
        have hlaunch := @Device.launch_received ⟨name, bus, cores, interval, .sound q, mailbox, .stopped⟩ q rfl
          hname rfl now rx
        simp only [act?, Device.start, hlaunch]
        exact ⟨trivial, rfl, rfl, rfl, rfl, rfl, trivial, trivial, rfl, rfl⟩

theorem Coherent.busy (hs : Coherent name bus cores interval s) (hstarted : s.device.started = true) :
    s.Busy := by
  have hstop : ∀ now exchange, exchange ≠ .crashed → ∃ s' q, s.act? (.stop now exchange) = some s' ∧
      s'.device.phase = .stopped ∧ s'.device.queue = .sound q ∧
      q.items = #[] ∧ q.needFlush = false ∧ q.newestInFlight = none := by
    intro now exchange hx
    obtain ⟨q, mailbox, hstop, hempty⟩ := hs.stop_started hstarted hx now
    refine ⟨_, q, if_neg hx, ?_⟩
    rw [hstop]
    exact ⟨rfl, rfl, hempty⟩
  have hreply : ∀ now exchange, exchange ≠ .crashed → ∃ s₁ s₂, s.act? (.finish exchange) = some s₁ ∧
      s₁.act? (.begin now) = some s₂ ∧ s₂.device = (s.device.reply s.clock now exchange).1 ∧
      s₂.device.transaction?.isSome = true := by
    intro now exchange hx
    obtain ⟨hended, hkept⟩ := hs.finish hx
    exact ⟨_, _, if_neg hx, rfl, rfl, hended.turn_started (hkept.trans hstarted) now⟩
  cases hs with
  | stopped => cases hstarted
  | waiting newest =>
      exact ⟨rfl, rfl, fun _ _ => ⟨rfl, rfl⟩, ⟨_, _, rfl, rfl, newest⟩, hreply, hstop⟩
  | polling newest =>
      exact ⟨rfl, rfl, fun _ _ => ⟨rfl, rfl⟩, ⟨_, _, rfl, rfl, newest⟩, hreply, hstop⟩

/-- However a device is started, used and stopped, its bus is with the device while it is stopped, and with its
loop while it is started. -/
theorem life_cycle {clock : EpochClock} {acts : List Act} (hname : Device.canName name = true)
    (h : (create name bus cores interval clock).run? acts = some s) : s.Idle ∨ s.Busy := by
  have hs : Coherent name bus cores interval s := (coherent_create clock).run hname h
  cases hstarted : s.device.started with
  | false => exact Or.inl (hs.idle hname hstarted)
  | true => exact Or.inr (hs.busy hstarted)

/-- A device that is stopped with an item on its boards, and started again. -/
theorem life_cycle_restart :
    let s₀ := create "knc0" "sim" .empty Wire.pollIntervalMicros (.start 1)
    let acts : List Act := [.start 0 (.received []), .enqueue PollLoop.early, .begin 0,
      .finish (.received (PollLoop.receipt 1)), .stop 0 (.failed .poisoned)]
    Device.canName "knc0" = true ∧ ∃ s s', s₀.run? acts = some s ∧ s.Idle ∧
      s₀.run? (acts ++ [.start 0 (.received []), .begin 0]) = some s' ∧ s'.Busy ∧
        s'.device = (s.device.start s.clock 0 (.received [])).2.1 := by
  intro s₀ acts
  have hname : Device.canName "knc0" = true := by simp [Device.canName]
  obtain ⟨s₁, h₁⟩ : ∃ s₁, s₀.run? (acts.take 4) = some s₁ := ⟨_, rfl⟩
  have hfailed : Exchange.failed .poisoned ≠ .crashed := by simp
  let s : Life := { s₁ with device := (s₁.device.stop s₁.clock 0 (.failed .poisoned)).1 }
  have hrun : s₀.run? acts = some s := by
    rw [← List.take_append_drop 4 acts, run?_append, h₁]
    rfl
  have hstopped : s.device.started = false := (((coherent_create _).run hname h₁).stop hfailed 0).2
  have hidle : s.Idle := by
    refine (life_cycle hname hrun).resolve_right fun hbusy => ?_
    exact Bool.false_ne_true (hstopped.symm.trans hbusy.started)
  obtain ⟨s₂, s', poller, cycle, _, h₂, _, _, _, _, _, h₃, hdevice, hphase⟩ := hidle.opens 0 []
  have hagain : s₀.run? (acts ++ [.start 0 (.received []), .begin 0]) = some s' := by
    rw [run?_append, hrun, Option.bind_some, run?_cons, h₂, Option.bind_some, run?_cons, h₃]
    rfl
  refine ⟨hname, s, s', hrun, hidle, hagain, ?_, hdevice⟩
  refine (life_cycle hname hagain).resolve_left fun hidle' => ?_
  have hholder := hidle'.holder
  rw [hphase] at hholder
  nomatch hholder

end Life

end Hashboard
