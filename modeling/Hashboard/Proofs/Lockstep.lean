import Hashboard.Proofs.Tracking

/-!
# Driver and simulated boards stay in step

The driver and the boards know of each other only through the bytes on the bus. Still the table and the
boards' queue hold the same ids in the same order after every cycle. Every record that the boards write is
dispatched at once and fits an item and a core, and items leave the table only when they are completed or
flushed.
-/

namespace Hashboard

/-- The settings of boards with these cores, and a queue that is not deeper than there are ids. -/
structure Wired (boards : List (UInt8 × List UInt8)) (settings : SimulatorSettings) : Prop
    extends Mounted boards settings where
  depth : settings.queueDepth.toNat ≤ Wire.idSpace

namespace Station

variable {boards : List (UInt8 × List UInt8)} {settings : SimulatorSettings} {s : Station Simulator}
  {now : Instant}

/-- The table tracks the boards, and there are ids for all that they can hold. -/
structure InStep (boards : List (UInt8 × List UInt8)) (settings : SimulatorSettings)
    (s : Station Simulator) : Prop extends s.Tracking boards settings where
  wired : Wired boards settings

theorem InStep.room (h : s.InStep boards settings) (now : Instant) :
    (s.held now).length ≤ Wire.idSpace :=
  Nat.le_trans (h.length_held now) h.wired.depth

/-- What both sides see of one cycle. -/
structure Agreed (s : Station Simulator) (now : Instant) (rx : List UInt8) (finished : PollFinished) :
    Prop where
  answer : s.answer now = .received rx
  ended : s.finished? now = some finished
  /-- The records fit into the reply, and all of them are dispatched. -/
  fits : s.bus.replies.length ≤ Reply.room Wire.transactionLength
  records : Reply.records rx = s.bus.replies
  known : ∃ outcome, finished.result = .ok outcome ∧
    outcome.dispatch.unknown = 0 ∧ outcome.dispatch.unresolved = 0
  clean : ∀ core nonce, Event.hardwareError core nonce ∉ finished.events
  displaced : finished.displaced = 0
  /-- The items in front are reported completed, one after the other; a flush drops the others. -/
  leaves : ∃ done left entered, s.poller.table.live = done ++ left ∧
    finished.events = done.flatMap s.bus.settings.reportsFor ∧
    (s.poll now).poller.table.live = (if (s.cycle now).flushing then [] else left) ++ entered ∧
    entered.map Prod.snd = (s.cycle now).taken rx
  ids : (s.poll now).poller.table.ids = (s.poll now).bus.pending

theorem InStep.poll (h : s.InStep boards settings) (now : Instant) :
    (s.poll now).InStep boards settings ∧ ∃ rx finished, s.Agreed now rx finished := by
  obtain ⟨rx, hanswer, hrx, _, htaken, hpoll⟩ := h.poll_eq now
  obtain ⟨hnone, hlive, _⟩ := h.insertAccepted hrx htaken (h.room now)
  obtain ⟨_, hevents, hsummary⟩ := h.dispatched
  refine ⟨⟨h.toTracking.poll (h.room now), h.wired⟩, rx, _, hanswer, finished?_received hanswer,
    h.replies_length, hrx, ?_, ?_, ?_, ?_, ?_⟩
  · refine ⟨_, rfl, ?_, ?_⟩
    · show (Hashboard.dispatch _ _ _ _).summary.unknown = 0
      rw [InFlight.dispatch_summary, hrx, (hsummary .zero).1]
      rfl
    · show (Hashboard.dispatch _ _ _ _).summary.unresolved = 0
      rw [InFlight.dispatch_summary, hrx, (hsummary .zero).2]
      rfl
  · intro core nonce hmem
    rw [Poller.finishReceived_events, hrx, hevents, List.mem_flatMap] at hmem
    obtain ⟨p, _, hp⟩ := hmem
    unfold SimulatorSettings.reportsFor at hp
    split at hp <;> simp at hp
  · rw [Poller.displaced_eq, hnone]
    rfl
  · refine ⟨s.finishing, s.staying, s.admitted now, live_split, ?_, ?_, ?_⟩
    · rw [Poller.finishReceived_events, hrx, hevents, h.configured]
    · rw [hpoll]
      exact hlive
    · rw [admitted_items, htaken]
  · rw [hpoll]
    exact h.ids_tableAfter hrx htaken (h.room now)

theorem InStep.act (h : s.InStep boards settings) (act : Act) : (s.act act).InStep boards settings :=
  ⟨h.toTracking.act act fun now _ => h.room now, h.wired⟩

theorem InStep.run (h : s.InStep boards settings) (acts : List Act) :
    (s.run acts).InStep boards settings := by
  induction acts generalizing s with
  | nil => exact h
  | cons act acts ih => exact ih (h.act act)

theorem inStep_start (h : Wired boards settings) {cores : CoreMap} (hcores : cores.Laid boards)
    (device : String) (interval : Nat) (epoch : UInt64) :
    (start device cores interval epoch (Simulator.start settings)).InStep boards settings :=
  ⟨tracking_start h.toMounted hcores device interval epoch, h⟩

/-- Driver and simulated boards stay in step. -/
theorem lockstep (h : Wired boards settings) :
    ∃ cores, CoreMap.empty.registerAll boards = .ok cores ∧
      ∀ device interval epoch acts now,
        let s := (start device cores interval epoch (Simulator.start settings)).run acts
        s.poller.table.ids = s.bus.pending ∧ ∃ rx finished, s.Agreed now rx finished := by
  obtain ⟨cores, hcores, hlaid⟩ := CoreMap.registerAll_laid h.asics
  refine ⟨cores, hcores, ?_⟩
  intro device interval epoch acts now
  have hs := (inStep_start h hlaid device interval epoch).run acts
  exact ⟨hs.ids, (hs.poll now).2⟩

/-- One full board behind the standard simulator. -/
theorem lockstep_standard :
    ∃ cores, CoreMap.empty.registerAll [(0, List.replicate Wire.coresPerBoard 3)] = .ok cores ∧
      ∀ device interval epoch acts now,
        let s := (start device cores interval epoch (Simulator.start .standard)).run acts
        s.poller.table.ids = s.bus.pending ∧ ∃ rx finished, s.Agreed now rx finished :=
  lockstep ⟨mounted_standard, by decide⟩

end Station

end Hashboard
