import Mathlib.Data.List.Perm.Basic
import Hashboard.Stats
import Hashboard.Proofs.Findings
import Hashboard.Proofs.Post

/-!
# Events and summaries agree

A dispatch tells of its replies twice: in the summary that it returns and in the events that it reports. What a run
counts from the events of all dispatches, however they come together, tells the same as the summaries (`reconciled`).
-/

namespace Hashboard

/-! ## Counting -/

namespace Event

def hashes : Event → UInt64
  | completed _ hashes => hashes
  | _ => 0

def isError : Event → Bool
  | error .. => true
  | _ => false

end Event

namespace Stats

variable {s : Stats} {events front rest : List Event}

/-- The counts after some more events. -/
def plus (s : Stats) (events : List Event) : Stats where
  startedAt := s.startedAt
  hashes := events.foldl (fun hashes event => hashes + event.hashes) s.hashes
  nonces := s.nonces + events.countP Event.isNonce
  completed := s.completed + events.countP Event.isCompleted
  hardwareErrors := s.hardwareErrors + events.countP Event.isHardwareError

theorem count_of_not_error {event : Event} (h : event.isError = false) : s.count event = .ok (s.plus [event]) := by
  cases event with
  | error => cases h
  | _ => simp [count, plus, Event.isNonce, Event.isCompleted, Event.isHardwareError, Event.hashes]

theorem plus_append : s.plus (front ++ rest) = (s.plus front).plus rest := by
  simp [plus, Nat.add_assoc]

theorem countAll_append (h : ∀ event ∈ front, event.isError = false) (rest : List Event) :
    s.countAll (front ++ rest) = (s.plus front).countAll rest := by
  induction front generalizing s with
  | nil => simp [plus]
  | cons event front ih =>
      obtain ⟨hevent, hfront⟩ := List.forall_mem_cons.mp h
      rw [List.cons_append, countAll, count_of_not_error hevent]
      dsimp only
      rw [ih hfront, ← plus_append, List.singleton_append]

theorem countAll_of_noError (h : ∀ event ∈ events, event.isError = false) :
    s.countAll events = (.ok (), s.plus events, []) := by
  rw [← List.append_nil events, countAll_append h, List.append_nil]
  rfl

/-- Completed work stands for 2 ^ 32 hashes each. -/
theorem hashes_plus (h : ∀ core hashes, .completed core hashes ∈ events → hashes = Wire.hashesPerWork) :
    (s.plus events).hashes = s.hashes + UInt64.ofNat (events.countP Event.isCompleted * 2 ^ 32) := by
  induction events generalizing s with
  | nil => exact (UInt64.add_zero s.hashes).symm
  | cons event events ih =>
      have hrest := ih (s := s.plus [event]) fun core hashes hmem => h core hashes (List.mem_cons_of_mem event hmem)
      rw [← List.singleton_append, plus_append, hrest]
      cases event with
      | completed core hashes =>
          obtain rfl := h core hashes List.mem_cons_self
          rw [List.singleton_append, List.countP_cons_of_pos rfl, Nat.add_mul, UInt64.ofNat_add, Nat.one_mul,
            UInt64.add_comm (UInt64.ofNat _), ← UInt64.add_assoc]
          rfl
      | _ => simp [plus, Event.hashes, Event.isCompleted]

end Stats

/-! ## One dispatch -/

namespace Finding

/-- A record is an error if its item or its core is unknown, or both. -/
theorem errors_bounds (cores : CoreMap) (fs : List Finding) :
    (fs.countP fun f => f.item.isNone) ≤ (fs.map (event cores)).countP Event.isHardwareError ∧
      (fs.countP fun f => !f.resolved cores) ≤ (fs.map (event cores)).countP Event.isHardwareError ∧
      (fs.map (event cores)).countP Event.isHardwareError ≤
        (fs.countP fun f => f.item.isNone) + fs.countP fun f => !f.resolved cores := by
  induction fs with
  | nil => exact ⟨Nat.le_refl _, Nat.le_refl _, Nat.le_refl _⟩
  | cons f fs ih =>
      have herror := (event_kinds cores f).2.2
      simp only [List.countP_map, List.map_cons, List.countP_cons, herror] at ih ⊢
      cases f.item <;> cases f.resolved cores <;> simp <;> omega

theorem hashes_of_event {cores : CoreMap} {f : Finding} {core : CoreId} {hashes : UInt64}
    (h : f.event cores = .completed core hashes) :
    hashes = Wire.hashesPerWork := by
  unfold event at h
  split at h <;> cases h
  rfl

end Finding

namespace DispatchCall

variable (c : DispatchCall)

def events : List Event :=
  c.result.events.toList

def summary : DispatchSummary :=
  c.result.summary

/-- The records of the reply that can be decoded. -/
def records : List ReplyRecord :=
  Reply.records c.rx

theorem events_eq : c.events = (c.table.findings c.records).map (Finding.event c.cores) :=
  InFlight.dispatch_events_eq

/-- A transaction has no room for so many records that a counter goes round. -/
theorem few : c.records.length < UInt32.size := by
  have hroom : Reply.room c.rx.length ≤ Reply.room Wire.transactionLength :=
    Nat.div_le_div_right (Nat.sub_le_sub_right c.fits _)
  have hwhole : Reply.room Wire.transactionLength < UInt32.size := by decide
  exact Nat.lt_of_le_of_lt (Nat.le_trans (Reply.records_length_le c.rx) hroom) hwhole

theorem toNat_summary :
    let found := c.table.findings c.records
    c.summary.nonces.toNat = found.countP (Finding.confirms c.cores .nonce) ∧
      c.summary.completed.toNat = found.countP (Finding.confirms c.cores .done) ∧
      c.summary.unknown.toNat = (found.countP fun f => f.item.isNone) ∧
      c.summary.unresolved.toNat = found.countP fun f => !f.resolved c.cores :=
  InFlight.toNat_dispatch_summary c.few

theorem countP_events :
    c.events.countP Event.isNonce = c.summary.nonces.toNat ∧
      c.events.countP Event.isCompleted = c.summary.completed.toNat := by
  obtain ⟨hnonces, hcompleted, -⟩ := c.toNat_summary
  rw [events_eq, hnonces, hcompleted]
  exact Finding.countP_events c.cores _

theorem records_length :
    c.summary.nonces.toNat + c.summary.completed.toNat + c.events.countP Event.isHardwareError =
      c.records.length := by
  rw [← c.countP_events.1, ← c.countP_events.2, events_eq, Finding.countP_total,
    ← InFlight.map_record_findings c.table c.records, List.length_map, InFlight.map_record_findings]

theorem errors_bounds :
    c.summary.unknown.toNat ≤ c.events.countP Event.isHardwareError ∧
      c.summary.unresolved.toNat ≤ c.events.countP Event.isHardwareError ∧
      c.events.countP Event.isHardwareError ≤ c.summary.unknown.toNat + c.summary.unresolved.toNat := by
  obtain ⟨-, -, hunknown, hunresolved⟩ := c.toNat_summary
  rw [events_eq, hunknown, hunresolved]
  exact Finding.errors_bounds c.cores _

theorem hashes_of_mem {core : CoreId} {hashes : UInt64} (h : .completed core hashes ∈ c.events) :
    hashes = Wire.hashesPerWork := by
  rw [events_eq] at h
  obtain ⟨f, -, hf⟩ := List.mem_map.mp h
  exact Finding.hashes_of_event hf

end DispatchCall

/-! ## Several dispatches -/

/-- These counts tell the same as the summaries of the dispatches. -/
structure Stats.Reconciles (s : Stats) (calls : List DispatchCall) : Prop where
  nonces : s.nonces = (calls.map (·.summary.nonces.toNat)).sum
  completed : s.completed = (calls.map (·.summary.completed.toNat)).sum
  hashes : s.hashes = UInt64.ofNat (s.completed * 2 ^ 32)
  /-- The hardware errors are the records that are neither of the two. -/
  total : s.nonces + s.completed + s.hardwareErrors = (calls.map (·.records.length)).sum
  atLeast :
    max (calls.map (·.summary.unknown.toNat)).sum (calls.map (·.summary.unresolved.toNat)).sum ≤ s.hardwareErrors
  atMost :
    s.hardwareErrors ≤ (calls.map (·.summary.unknown.toNat)).sum + (calls.map (·.summary.unresolved.toNat)).sum

theorem DispatchCall.sums (calls : List DispatchCall) :
    (calls.map (·.summary.nonces.toNat)).sum + (calls.map (·.summary.completed.toNat)).sum +
        (calls.flatMap events).countP Event.isHardwareError = (calls.map (·.records.length)).sum ∧
      (calls.map (·.summary.unknown.toNat)).sum ≤ (calls.flatMap events).countP Event.isHardwareError ∧
      (calls.map (·.summary.unresolved.toNat)).sum ≤ (calls.flatMap events).countP Event.isHardwareError ∧
      (calls.flatMap events).countP Event.isHardwareError ≤
        (calls.map (·.summary.unknown.toNat)).sum + (calls.map (·.summary.unresolved.toNat)).sum := by
  induction calls with
  | nil => exact ⟨rfl, Nat.le_refl _, Nat.le_refl _, Nat.le_refl _⟩
  | cons c calls ih =>
      obtain ⟨hunknown, hunresolved, hboth⟩ := c.errors_bounds
      have htotal := c.records_length
      simp only [List.map_cons, List.sum_cons, List.flatMap_cons, List.countP_append]
      omega

theorem Stats.reconciles_of_perm {calls : List DispatchCall} {events : List Event}
    (h : events.Perm (calls.flatMap DispatchCall.events)) (now : Instant) :
    ((start now).plus events).Reconciles calls := by
  have hcounts : events.countP Event.isNonce = (calls.map (·.summary.nonces.toNat)).sum ∧
      events.countP Event.isCompleted = (calls.map (·.summary.completed.toNat)).sum := by
    rw [h.countP_eq, h.countP_eq, List.countP_flatMap, List.countP_flatMap]
    constructor
    · exact congrArg List.sum (List.map_congr_left fun c _ => c.countP_events.1)
    · exact congrArg List.sum (List.map_congr_left fun c _ => c.countP_events.2)
  have hwork : ∀ core hashes, .completed core hashes ∈ events → hashes = Wire.hashesPerWork := by
    intro core hashes hmem
    obtain ⟨c, -, hc⟩ := List.mem_flatMap.mp (h.mem_iff.mp hmem)
    exact c.hashes_of_mem hc
  obtain ⟨htotal, hunknown, hunresolved, hboth⟩ := DispatchCall.sums calls
  rw [← h.countP_eq] at htotal hunknown hunresolved hboth
  constructor
  case nonces => simpa [plus, start] using hcounts.1
  case completed => simpa [plus, start] using hcounts.2
  case hashes => simpa [plus, start] using hashes_plus (s := start now) hwork
  case total => simpa [plus, start, hcounts] using htotal
  case atLeast =>
    exact Nat.max_le.mpr ⟨by simpa [plus, start] using hunknown, by simpa [plus, start] using hunresolved⟩
  case atMost => simpa [plus, start] using hboth

/-! ## All dispatches of a run -/

namespace Post

variable {κ δ : Type} [DecidableEq δ] {of : κ → δ} {past : List (PostEntry κ)} {w : Post κ δ} {entry : PostEntry κ}
  {receiver : Nat}

def calls (past : List (PostEntry κ)) : List DispatchCall :=
  past.reverse.filterMap PostEntry.call?

/-- The events that dispatches have reported, in order. -/
def brought (past : List (PostEntry κ)) : List Event :=
  past.reverse.filterMap PostEntry.brought?

/-- The events that dispatches have still to report. -/
def unreported (w : Post κ δ) : List Event :=
  w.running.flatMap Prod.snd

theorem calls_cons (entry : PostEntry κ) (past : List (PostEntry κ)) :
    calls (entry :: past) = calls past ++ entry.call?.toList := by
  rw [calls, List.reverse_cons, List.filterMap_append]
  cases h : entry.call? <;> simp [calls, h]

theorem brought_cons (entry : PostEntry κ) (past : List (PostEntry κ)) :
    brought (entry :: past) = brought past ++ entry.brought?.toList := by
  rw [brought, List.reverse_cons, List.filterMap_append]
  cases h : entry.brought? <;> simp [brought, h]

theorem calls_of_none (h : entry.call? = none) : calls (entry :: past) = calls past := by
  rw [calls_cons, h, Option.toList_none, List.append_nil]

theorem brought_of_none (h : entry.brought? = none) : brought (entry :: past) = brought past := by
  rw [brought_cons, h, Option.toList_none, List.append_nil]

@[simp] theorem running_report (w : Post κ δ) (sink : δ) (event : Event) :
    (w.report sink event).running = w.running := rfl

/-- However the dispatches report, their events are all there, each of them once. -/
theorem Reached.brought_perm (h : Reached of past w) :
    (brought past ++ w.unreported).Perm ((calls past).flatMap DispatchCall.events) := by
  induction h with
  | start => exact .nil
  | create _ ih | set _ _ _ ih | drop _ _ ih | take _ _ ih | report _ _ _ ih =>
      rw [calls_of_none rfl, brought_of_none rfl]
      exact ih
  | @dispatch past w _ clone call ih =>
      have hcalls : (calls (.dispatched call :: past)).flatMap DispatchCall.events =
          (calls past).flatMap DispatchCall.events ++ call.events := by
        simp [calls_cons, PostEntry.call?]
      rw [hcalls, brought_of_none rfl]
      refine .trans ?_ (ih.append_right call.events)
      rw [List.append_assoc]
      exact List.perm_append_comm.append_left (brought past)
  | @bring past w _ front clone event rest behind hrun ih =>
      have hbefore : w.unreported = front.flatMap Prod.snd ++ event :: (rest ++ behind.flatMap Prod.snd) := by
        simp [unreported, hrun]
      have hafter : (({ w with running := front ++ (clone, rest) :: behind } : Post κ δ).report (of clone)
          event).unreported = front.flatMap Prod.snd ++ (rest ++ behind.flatMap Prod.snd) := by
        simp [unreported]
      have hbrought : brought (.brought clone event :: past) = brought past ++ [event] := by
        simp [brought_cons, PostEntry.brought?]
      rw [hafter, hbrought, calls_of_none rfl]
      refine .trans ?_ ih
      rw [hbefore, List.append_assoc, List.singleton_append]
      exact List.perm_middle.symm.append_left (brought past)

theorem routes_events (h : ∀ clone event, PostEntry.reported clone event ∉ past) :
    (routes of past).map Route.event = brought past := by
  induction past with
  | nil => rfl
  | cons entry past ih =>
      have hrest := ih fun clone event hmem => h clone event (List.mem_cons_of_mem entry hmem)
      cases entry with
      | reported clone event => exact absurd List.mem_cons_self (h clone event)
      | brought clone event => simp [routes, PostEntry.report?, brought_cons, PostEntry.brought?, hrest]
      | _ =>
          rw [routes_of_silent rfl, brought_of_none rfl]
          exact hrest

theorem sent_eq (h : ∀ route ∈ routes of past, route.receiver = some receiver) :
    sent of receiver past = (routes of past).map Route.event := by
  rw [sent, ← List.filterMap_eq_map]
  refine List.filterMap_congr fun route hroute => ?_
  rw [if_pos (h route hroute)]
  rfl

/-- All sinks report to one receiver, only dispatches report, none of them an error, and all of them are done. -/
structure Undisturbed (of : κ → δ) (receiver : Nat) (past : List (PostEntry κ)) (w : Post κ δ) : Prop where
  connected : ∀ route ∈ routes of past, route.receiver = some receiver
  /-- Apart from dispatches, devices report nothing but that they give up. -/
  alone : ∀ clone event, .reported clone event ∈ past → event.isError = true
  noError : ∀ route ∈ routes of past, route.event.isError = false
  finished : ∀ run ∈ w.running, run.2 = []

theorem mem_routes_of_reported (of : κ → δ) {clone : κ} {event : Event} (h : .reported clone event ∈ past) :
    ∃ route ∈ routes of past, route.event = event := by
  induction past with
  | nil => cases h
  | cons entry past ih =>
      rw [routes]
      cases List.mem_cons.mp h with
      | inl heq =>
          subst heq
          exact ⟨_, List.mem_append_right _ (List.mem_singleton_self _), rfl⟩
      | inr hmem =>
          obtain ⟨route, hroute, he⟩ := ih hmem
          exact ⟨route, List.mem_append_left _ hroute, he⟩

/-- What an undisturbed run has put into its channel are the events of its dispatches. -/
theorem Undisturbed.sent_perm (hw : Undisturbed of receiver past w) (h : Reached of past w) :
    (sent of receiver past).Perm ((calls past).flatMap DispatchCall.events) := by
  have hsilent : ∀ clone event, PostEntry.reported clone event ∉ past := by
    intro clone event hmem
    obtain ⟨route, hroute, rfl⟩ := mem_routes_of_reported of hmem
    exact Bool.false_ne_true ((hw.noError route hroute).symm.trans (hw.alone clone _ hmem))
  have hdone : w.unreported = [] := List.flatMap_eq_nil_iff.mpr hw.finished
  have hperm := h.brought_perm
  rw [hdone, List.append_nil] at hperm
  rw [sent_eq hw.connected, routes_events hsilent]
  exact hperm

theorem Undisturbed.noError_sent (hw : Undisturbed of receiver past w) :
    ∀ event ∈ sent of receiver past, event.isError = false := by
  rw [sent_eq hw.connected]
  intro event hevent
  obtain ⟨route, hroute, rfl⟩ := List.mem_map.mp hevent
  exact hw.noError route hroute

/-- Reports wait for the receiver set last, or are counted as dropped; each of them is either. If a run is
undisturbed, what was taken out of its channel and what is left there are counted to the same as the
summaries tell. An error ends the counting behind the events in front of it. -/
theorem reconciled (h : Reached of past w) (now : Instant) :
    Kept of past w ∧
      (∀ sink, reports of sink past = puts of sink past + (w.sinks sink).dropped) ∧
      (∀ receiver queue, Undisturbed of receiver past w → w.receivers[receiver]? = some (some queue) →
        ∃ counted drained, (Stats.start now).countAll (taken receiver past) = (.ok (), counted, []) ∧
          counted.countAll queue.toList = (.ok (), drained, []) ∧ drained.Reconciles (calls past)) ∧
      ∀ (s : Stats) front device message behind, (∀ event ∈ front, event.isError = false) →
        s.countAll (front ++ .error device message :: behind) =
          (.error (.deviceFailed device message), s.plus front, behind) := by
  have hkept := h.kept
  refine ⟨hkept, fun sink => ?_, fun receiver queue hw hqueue => ?_, fun s front device message behind hfront => ?_⟩
  · rw [hkept.dropped, reports_eq]
  · have hsent := hkept.waiting receiver queue hqueue
    have herror := hw.noError_sent
    have hperm := hw.sent_perm h
    rw [hsent] at herror hperm
    obtain ⟨htaken, hwaiting⟩ := List.forall_mem_append.mp herror
    refine ⟨_, _, Stats.countAll_of_noError htaken, Stats.countAll_of_noError hwaiting, ?_⟩
    rw [← Stats.plus_append]
    exact Stats.reconciles_of_perm hperm now
  · rw [Stats.countAll_append hfront]
    rfl

/-- Two clones of a sink: one has the receiver set, through the other a dispatch reports that a search ended twice. -/
theorem reconciled_twice :
    let item : Item := ⟨0, .replicate Wire.midstateLength 0, .replicate Wire.dataLength 0, 1⟩
    let ended : ReplyRecord := ⟨.done, ⟨0, 0⟩, 0, 0⟩
    let call : DispatchCall := {
      device := "knc0"
      cores := (CoreMap.empty.register 0 [3]).2
      table := (InFlight.empty.insertNext item).2.2
      rx := Reply.write Wire.transactionLength ⟨false, 0⟩ [ended, ended]
      fits := Nat.le_of_eq (Reply.write_length (show Wire.headerLength ≤ Wire.transactionLength by decide)) }
    ∃ (past : List (PostEntry Bool)) (w : Post Bool Unit), Reached (fun _ => ()) past w ∧ calls past = [call] ∧
      Undisturbed (fun _ => ()) 0 past w ∧
      ∃ drained, (Stats.start 0).countAll [.completed ⟨0⟩ 4294967296, .hardwareError (some ⟨0⟩) none] =
        (.ok (), drained, []) ∧ drained.Reconciles [call] := by
  intro item ended call
  have hrecords : Reply.records (Reply.write Wire.transactionLength ⟨false, 0⟩ [ended, ended]) =
      [ended, ended] := Reply.records_write_of_fits (by decide) (by decide) (by decide)
  have hget : call.table.get? ended.id = some item := InFlight.get?_insertNext
  have hcore : call.cores.resolve ended.address = some ⟨0⟩ := by decide
  have hends : ended.ends ended.id := ⟨rfl, rfl⟩
  have hevents : call.result.events.toList = [.completed ⟨0⟩ 4294967296, .hardwareError (some ⟨0⟩) none] := by
    refine InFlight.dispatch_events.trans ?_
    rw [hrecords]
    simp only [InFlight.eventsOf, InFlight.eventOf, InFlight.get?_retire, hget, hcore, if_pos hends]
    rfl
  have hstart : Reached (fun _ : Bool => ()) [] empty := .start
  have hcalled := (hstart.create.set true (show 0 < 1 by decide)).dispatch false call
  rw [hevents] at hcalled
  let past : List (PostEntry Bool) := [.brought false (.hardwareError (some ⟨0⟩) none),
    .brought false (.completed ⟨0⟩ 4294967296), .dispatched call, .set true 0, .opened]
  let w : Post Bool Unit := ⟨#[some #[.completed ⟨0⟩ 4294967296, .hardwareError (some ⟨0⟩) none]],
    fun _ => ⟨some 0, 0⟩, [(false, [])]⟩
  have hdone : Reached (fun _ => ()) past w := (hcalled.bring [] rfl).bring [] rfl
  have hw : Undisturbed (fun _ => ()) 0 past w := by
    constructor
    case connected => simp [past, routes, PostEntry.report?, target, lastSet, isGone, PostEntry.drops]
    case alone => simp [past]
    case noError => simp [past, routes, PostEntry.report?, Event.isError]
    case finished => simp [w]
  obtain ⟨-, -, hcounts, -⟩ := reconciled hdone 0
  obtain ⟨counted, drained, htaken, hdrained, hrec⟩ := hcounts 0 _ hw rfl
  obtain rfl : Stats.start 0 = counted := congrArg (fun result => result.2.1) htaken
  exact ⟨past, w, hdone, rfl, hw, drained, hdrained, hrec⟩

end Post

end Hashboard
