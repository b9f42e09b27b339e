import Mathlib.Data.List.Basic
import Mathlib.Logic.Function.Basic
import Hashboard.Dispatch

/-!
# Sinks, their clones and receivers

Reports go through clones of sinks to receivers that are set and dropped at any time. A report waits for the receiver
set last if that one is still there, and is counted as dropped by its sink if not (`Kept`).
-/

namespace Hashboard

/-- What the clones of a sink share. -/
structure Sink where
  current : Option Nat
  dropped : Nat

/-- What a device hands to a dispatch. Its receive buffer holds one transaction. -/
structure DispatchCall where
  device : String
  cores : CoreMap
  table : InFlight
  rx : List UInt8
  fits : rx.length ≤ Wire.transactionLength

def DispatchCall.result (c : DispatchCall) : Dispatched :=
  dispatch c.device c.cores c.table c.rx

/-- The receivers, the sinks that report to them, and the dispatches that run: each through a clone of a
sink, with the events that it has still to report. -/
structure Post (κ δ : Type) where
  receivers : Array (Option (Array Event))
  sinks : δ → Sink
  running : List (κ × List Event)

inductive PostEntry (κ : Type) where
  | opened
  | set (clone : κ) (receiver : Nat)
  | gone (receiver : Nat)
  | taken (receiver : Nat) (event : Event)
  | dispatched (call : DispatchCall)
  /-- Reported by a dispatch. -/
  | brought (clone : κ) (event : Event)
  | reported (clone : κ) (event : Event)

namespace Post

variable {κ δ : Type} [DecidableEq δ]

/-! ## Runs -/

def empty : Post κ δ :=
  ⟨#[], fun _ => ⟨none, 0⟩, []⟩

/-- A sink and the receivers as its clones see them. -/
def mailbox (w : Post κ δ) (sink : δ) : Mailbox :=
  ⟨w.receivers, (w.sinks sink).current, (w.sinks sink).dropped⟩

def write (w : Post κ δ) (sink : δ) (m : Mailbox) : Post κ δ :=
  { w with receivers := m.receivers, sinks := Function.update w.sinks sink ⟨m.current, m.dropped⟩ }

def report (w : Post κ δ) (sink : δ) (event : Event) : Post κ δ :=
  w.write sink ((w.mailbox sink).put event)

/-- Any order of events around some sinks, each of which has the clones that are `of` it: what
happened, the last thing first, and what it led to. -/
inductive Reached (of : κ → δ) : List (PostEntry κ) → Post κ δ → Prop
  | start : Reached of [] empty
  | create {past : List (PostEntry κ)} {w : Post κ δ} (h : Reached of past w) :
      Reached of (.opened :: past) { w with receivers := w.receivers.push (some #[]) }
  | set {past : List (PostEntry κ)} {w : Post κ δ} (h : Reached of past w) (clone : κ) {receiver : Nat}
      (hr : receiver < w.receivers.size) :
      Reached of (.set clone receiver :: past) (w.write (of clone) ((w.mailbox (of clone)).set receiver))
  | drop {past : List (PostEntry κ)} {w : Post κ δ} (h : Reached of past w) {receiver : Nat}
      (hr : receiver < w.receivers.size) :
      Reached of (.gone receiver :: past) { w with receivers := w.receivers.modify receiver fun _ => none }
  | take {past : List (PostEntry κ)} {w : Post κ δ} (h : Reached of past w) {receiver : Nat} {event : Event}
      {rest : List Event} (hr : w.receivers[receiver]? = some (some (event :: rest).toArray)) :
      Reached of (.taken receiver event :: past)
        { w with receivers := w.receivers.modify receiver fun _ => some rest.toArray }
  | dispatch {past : List (PostEntry κ)} {w : Post κ δ} (h : Reached of past w) (clone : κ) (call : DispatchCall) :
      Reached of (.dispatched call :: past)
        { w with running := (clone, call.result.events.toList) :: w.running }
  | bring {past : List (PostEntry κ)} {w : Post κ δ} (h : Reached of past w) (front : List (κ × List Event))
      {clone : κ} {event : Event} {rest : List Event} {behind : List (κ × List Event)}
      (hrun : w.running = front ++ (clone, event :: rest) :: behind) :
      Reached of (.brought clone event :: past)
        ({ w with running := front ++ (clone, rest) :: behind }.report (of clone) event)
  | report {past : List (PostEntry κ)} {w : Post κ δ} (h : Reached of past w) (clone : κ) (event : Event) :
      Reached of (.reported clone event :: past) (w.report (of clone) event)

end Post

/-! ## What the past tells -/

namespace PostEntry

variable {κ δ : Type}

def report? : PostEntry κ → Option (κ × Event)
  | brought clone event | reported clone event => some (clone, event)
  | _ => none

def taken? (receiver : Nat) : PostEntry κ → Option Event
  | taken r event => if r = receiver then some event else none
  | _ => none

def brought? : PostEntry κ → Option Event
  | brought _ event => some event
  | _ => none

def call? : PostEntry κ → Option DispatchCall
  | dispatched call => some call
  | _ => none

def drops (receiver : Nat) : PostEntry κ → Bool
  | gone r => r == receiver
  | _ => false

end PostEntry

/-- A report, and the receiver for which it waits; none if it is dropped. -/
structure Route (δ : Type) where
  sink : δ
  event : Event
  receiver : Option Nat

namespace Post

variable {κ δ : Type} [DecidableEq δ] {of : κ → δ} {past : List (PostEntry κ)} {w : Post κ δ} {entry : PostEntry κ}
  {clone : κ} {event : Event}

/-- The receiver set last. -/
def lastSet (of : κ → δ) (sink : δ) : List (PostEntry κ) → Option Nat
  | [] => none
  | .set clone receiver :: past => if of clone = sink then some receiver else lastSet of sink past
  | _ :: past => lastSet of sink past

def isGone (receiver : Nat) (past : List (PostEntry κ)) : Bool :=
  past.any (PostEntry.drops receiver)

/-- The receiver set last if that one is still there. -/
def target (of : κ → δ) (sink : δ) (past : List (PostEntry κ)) : Option Nat :=
  (lastSet of sink past).filter fun receiver => !isGone receiver past

/-- All reports, the first one first. -/
def routes (of : κ → δ) : List (PostEntry κ) → List (Route δ)
  | [] => []
  | entry :: past =>
    routes of past ++
      (entry.report?.map fun (clone, event) => ⟨of clone, event, target of (of clone) past⟩).toList

/-- The events that were put into the channel of a receiver, in order. -/
def sent (of : κ → δ) (receiver : Nat) (past : List (PostEntry κ)) : List Event :=
  (routes of past).filterMap fun route => if route.receiver = some receiver then some route.event else none

def taken (receiver : Nat) (past : List (PostEntry κ)) : List Event :=
  past.reverse.filterMap (PostEntry.taken? receiver)

/-- The number of reports through clones of a sink. -/
def reports (of : κ → δ) (sink : δ) (past : List (PostEntry κ)) : Nat :=
  past.countP fun entry => entry.report?.any fun (clone, _) => of clone = sink

/-- The number of reports through clones of a sink that were put into a channel. -/
def puts (of : κ → δ) (sink : δ) (past : List (PostEntry κ)) : Nat :=
  (routes of past).countP fun route => route.sink = sink && route.receiver.isSome

/-- The number of reports through clones of a sink that were not. -/
def losses (of : κ → δ) (sink : δ) (past : List (PostEntry κ)) : Nat :=
  (routes of past).countP fun route => route.sink = sink && route.receiver.isNone

/-! ## One more entry -/

@[simp] theorem lastSet_of_report (h : entry.report? = some (clone, event)) (sink : δ) :
    lastSet of sink (entry :: past) = lastSet of sink past := by
  cases entry <;> first | rfl | cases h

theorem isGone_of_report (h : entry.report? = some (clone, event)) (receiver : Nat) :
    isGone receiver (entry :: past) = isGone receiver past := by
  cases entry <;> first | rfl | cases h

theorem taken_cons (receiver : Nat) (entry : PostEntry κ) (past : List (PostEntry κ)) :
    taken receiver (entry :: past) = taken receiver past ++ (entry.taken? receiver).toList := by
  rw [taken, List.reverse_cons, List.filterMap_append]
  cases h : entry.taken? receiver <;> simp [taken, h]

theorem taken_of_none {receiver : Nat} (h : entry.taken? receiver = none) :
    taken receiver (entry :: past) = taken receiver past := by
  rw [taken_cons, h, Option.toList_none, List.append_nil]

theorem taken_of_report (h : entry.report? = some (clone, event)) (receiver : Nat) :
    taken receiver (entry :: past) = taken receiver past := by
  refine taken_of_none ?_
  cases entry <;> first | rfl | cases h

theorem routes_of_report (h : entry.report? = some (clone, event)) :
    routes of (entry :: past) = routes of past ++ [⟨of clone, event, target of (of clone) past⟩] := by
  rw [routes, h]
  rfl

theorem routes_of_silent (h : entry.report? = none) : routes of (entry :: past) = routes of past := by
  rw [routes, h]
  exact List.append_nil _

theorem sent_of_silent (h : entry.report? = none) (receiver : Nat) :
    sent of receiver (entry :: past) = sent of receiver past := by
  rw [sent, routes_of_silent h, sent]

theorem sent_of_report (h : entry.report? = some (clone, event)) (receiver : Nat) :
    sent of receiver (entry :: past) =
      sent of receiver past ++ if target of (of clone) past = some receiver then [event] else [] := by
  rw [sent, routes_of_report h, List.filterMap_append, sent]
  split <;> simp [*]

theorem losses_of_silent (h : entry.report? = none) (sink : δ) :
    losses of sink (entry :: past) = losses of sink past := by
  rw [losses, routes_of_silent h, losses]

theorem losses_of_report (h : entry.report? = some (clone, event)) (sink : δ) :
    losses of sink (entry :: past) =
      losses of sink past + if of clone = sink ∧ target of (of clone) past = none then 1 else 0 := by
  rw [losses, routes_of_report h, List.countP_append, losses]
  simp

/-- A report is put into a channel or lost. -/
theorem reports_eq (of : κ → δ) (sink : δ) (past : List (PostEntry κ)) :
    reports of sink past = puts of sink past + losses of sink past := by
  induction past with
  | nil => rfl
  | cons entry past ih =>
      cases h : entry.report? with
      | none => simpa [reports, puts, losses, routes_of_silent h, h] using ih
      | some report =>
          obtain ⟨clone, event⟩ := report
          simp only [reports, puts, losses, routes_of_report h, List.countP_append, List.countP_cons, h] at ih ⊢
          by_cases hsink : of clone = sink <;> cases target of (of clone) past <;> simp [hsink, ih] <;> omega

/-! ## What is kept -/

/-- The sinks and receivers are as the past tells. -/
structure Kept (of : κ → δ) (past : List (PostEntry κ)) (w : Post κ δ) : Prop where
  current : ∀ sink, (w.sinks sink).current = lastSet of sink past
  known : ∀ sink receiver, lastSet of sink past = some receiver → receiver < w.receivers.size
  gone : ∀ receiver, w.receivers[receiver]? = some none ↔ isGone receiver past = true
  waiting : ∀ receiver queue, w.receivers[receiver]? = some (some queue) →
    sent of receiver past = taken receiver past ++ queue.toList
  unknown : ∀ receiver, w.receivers.size ≤ receiver → sent of receiver past = [] ∧ taken receiver past = []
  dropped : ∀ sink, (w.sinks sink).dropped = losses of sink past

namespace Kept

theorem empty (of : κ → δ) : Kept of [] (empty : Post κ δ) where
  current _ := rfl
  known _ _ h := by cases h
  gone _ := by simp [Post.empty, isGone]
  waiting _ _ h := by simp [Post.empty] at h
  unknown _ _ := ⟨rfl, rfl⟩
  dropped _ := rfl

/-- What an entry that neither reports nor takes anything leaves as it is. -/
theorem quiet (h : Kept of past w) (hreport : entry.report? = none) (htaken : ∀ r, entry.taken? r = none) :
    (∀ receiver queue, w.receivers[receiver]? = some (some queue) →
      sent of receiver (entry :: past) = taken receiver (entry :: past) ++ queue.toList) ∧
    (∀ receiver, w.receivers.size ≤ receiver →
      sent of receiver (entry :: past) = [] ∧ taken receiver (entry :: past) = []) ∧
    ∀ sink, (w.sinks sink).dropped = losses of sink (entry :: past) := by
  refine ⟨fun receiver queue hqueue => ?_, fun receiver hle => ?_, fun sink => ?_⟩
  · rw [sent_of_silent hreport, taken_of_none (htaken receiver)]
    exact h.waiting receiver queue hqueue
  · rw [sent_of_silent hreport, taken_of_none (htaken receiver)]
    exact h.unknown receiver hle
  · rw [losses_of_silent hreport]
    exact h.dropped sink

theorem create (h : Kept of past w) :
    Kept of (.opened :: past) { w with receivers := w.receivers.push (some #[]) } where
  current := h.current
  known sink receiver hset := by
    rw [Array.size_push]
    exact Nat.lt_succ_of_lt (h.known sink receiver hset)
  gone receiver := by
    rw [Array.getElem?_push]
    split
    · rename_i hlast
      have hnone := h.gone receiver
      rw [hlast, Array.getElem?_eq_none (Nat.le_refl _)] at hnone
      simpa [isGone, PostEntry.drops, hlast] using hnone
    · exact h.gone receiver
  waiting receiver queue hqueue := by
    rw [Array.getElem?_push] at hqueue
    split at hqueue
    · rename_i hlast
      obtain ⟨hsent, htaken⟩ := h.unknown receiver (Nat.le_of_eq hlast.symm)
      obtain rfl := Option.some.inj (Option.some.inj hqueue)
      rw [sent_of_silent rfl, taken_of_none rfl, hsent, htaken]
      rfl
    · exact (h.quiet rfl fun _ => rfl).1 receiver queue hqueue
  unknown receiver hle := by
    rw [Array.size_push] at hle
    exact (h.quiet rfl fun _ => rfl).2.1 receiver (Nat.le_of_succ_le hle)
  dropped := (h.quiet rfl fun _ => rfl).2.2

theorem set (h : Kept of past w) (clone : κ) {receiver : Nat} (hr : receiver < w.receivers.size) :
    Kept of (.set clone receiver :: past) (w.write (of clone) ((w.mailbox (of clone)).set receiver)) where
  current sink := by
    by_cases hs : sink = of clone
    · subst hs
      simp [write, Mailbox.set, lastSet]
    · simp [write, lastSet, Function.update_of_ne hs, Ne.symm hs, h.current]
  known sink r hset := by
    rw [lastSet] at hset
    split at hset
    · obtain rfl := Option.some.inj hset
      exact hr
    · exact h.known sink r hset
  gone := h.gone
  waiting := (h.quiet rfl fun _ => rfl).1
  unknown := (h.quiet rfl fun _ => rfl).2.1
  dropped sink := by
    rw [losses_of_silent rfl, ← h.dropped]
    by_cases hs : sink = of clone
    · subst hs
      simp [write, Mailbox.set, mailbox]
    · simp [write, Function.update_of_ne hs]

theorem drop (h : Kept of past w) {receiver : Nat} (hr : receiver < w.receivers.size) :
    Kept of (.gone receiver :: past) { w with receivers := w.receivers.modify receiver fun _ => none } where
  current := h.current
  known sink r hset := by
    rw [Array.size_modify]
    exact h.known sink r hset
  gone r := by
    rw [Array.getElem?_modify]
    split
    · rename_i hsame
      subst hsame
      simp [hr, isGone, PostEntry.drops]
    · rename_i hother
      simpa [isGone, PostEntry.drops, hother] using h.gone r
  waiting r queue hqueue := by
    rw [Array.getElem?_modify] at hqueue
    split at hqueue
    · simp at hqueue
    · exact (h.quiet rfl fun _ => rfl).1 r queue hqueue
  unknown r hle := by
    rw [Array.size_modify] at hle
    exact (h.quiet rfl fun _ => rfl).2.1 r hle
  dropped := (h.quiet rfl fun _ => rfl).2.2

theorem take (h : Kept of past w) {receiver : Nat} {rest : List Event}
    (hr : w.receivers[receiver]? = some (some (event :: rest).toArray)) :
    Kept of (.taken receiver event :: past)
      { w with receivers := w.receivers.modify receiver fun _ => some rest.toArray } where
  current := h.current
  known sink r hset := by
    rw [Array.size_modify]
    exact h.known sink r hset
  gone r := by
    rw [Array.getElem?_modify]
    split
    · rename_i hsame
      subst hsame
      have hgone := h.gone receiver
      rw [hr] at hgone ⊢
      simpa [isGone, PostEntry.drops] using hgone
    · exact h.gone r
  waiting r queue hqueue := by
    rw [Array.getElem?_modify] at hqueue
    rw [sent_of_silent rfl, taken_cons]
    split at hqueue
    · rename_i hsame
      subst hsame
      rw [hr] at hqueue
      obtain rfl := Option.some.inj (Option.some.inj hqueue)
      simp [h.waiting receiver _ hr, PostEntry.taken?]
    · rename_i hother
      simp [h.waiting r queue hqueue, PostEntry.taken?, hother]
  unknown r hle := by
    rw [Array.size_modify] at hle
    obtain ⟨hsent, htaken⟩ := h.unknown r hle
    have hother : receiver ≠ r := by
      have hlt := (Array.getElem?_eq_some_iff.mp hr).1
      omega
    rw [sent_of_silent rfl, taken_cons]
    exact ⟨hsent, by simp [htaken, PostEntry.taken?, hother]⟩
  dropped sink := by
    rw [losses_of_silent rfl]
    exact h.dropped sink

theorem queue_of_target (h : Kept of past w) {sink : δ} {receiver : Nat}
    (ht : target of sink past = some receiver) :
    (w.sinks sink).current = some receiver ∧ ∃ queue, w.receivers[receiver]? = some (some queue) := by
  obtain ⟨hset, hthere⟩ := Option.filter_eq_some_iff.mp ht
  refine ⟨(h.current sink).trans hset, ?_⟩
  have hlt := h.known sink receiver hset
  cases hq : w.receivers[receiver] with
  | none =>
      have hgone := (h.gone receiver).mp ((Array.getElem?_eq_getElem hlt).trans (congrArg some hq))
      rw [hgone] at hthere
      cases hthere
  | some queue => exact ⟨queue, (Array.getElem?_eq_getElem hlt).trans (congrArg some hq)⟩

theorem connected_eq (h : Kept of past w) (sink : δ) :
    (w.mailbox sink).connected = (target of sink past).isSome := by
  cases ht : target of sink past with
  | some receiver =>
      obtain ⟨hcurrent, queue, hqueue⟩ := h.queue_of_target ht
      simp [Mailbox.connected, mailbox, hcurrent, hqueue]
  | none =>
      cases hset : lastSet of sink past with
      | none => simp [Mailbox.connected, mailbox, h.current, hset]
      | some receiver =>
          have hgone : isGone receiver past = true := by simpa [target, hset] using ht
          simp [Mailbox.connected, mailbox, h.current, hset, (h.gone receiver).mpr hgone]

theorem report_of_target (h : Kept of past w) {sink : δ} {receiver : Nat}
    (ht : target of sink past = some receiver) (event : Event) :
    w.report sink event =
      { w with receivers := w.receivers.modify receiver fun queue => queue.map (·.push event) } := by
  have hconnected := h.connected_eq sink
  rw [ht, Option.isSome_some] at hconnected
  rw [Post.report, Mailbox.put, if_pos hconnected]
  simp only [write, mailbox, (h.queue_of_target ht).1, Option.getD_some]
  congr 1
  rw [← (h.queue_of_target ht).1]
  exact Function.update_eq_self sink w.sinks

theorem report_of_lost (h : Kept of past w) {sink : δ} (ht : target of sink past = none) (event : Event) :
    w.report sink event = { w with
      sinks := Function.update w.sinks sink ⟨(w.sinks sink).current, (w.sinks sink).dropped + 1⟩ } := by
  have hconnected := h.connected_eq sink
  rw [ht, Option.isSome_none] at hconnected
  rw [Post.report, Mailbox.put, if_neg (Bool.eq_false_iff.mp hconnected)]
  rfl

theorem report_waits (h : Kept of past w) (hentry : entry.report? = some (clone, event)) {receiver : Nat}
    (ht : target of (of clone) past = some receiver) :
    Kept of (entry :: past)
      { w with receivers := w.receivers.modify receiver fun queue => queue.map (·.push event) } where
  current sink := by
    rw [lastSet_of_report hentry]
    exact h.current sink
  known sink r hset := by
    rw [lastSet_of_report hentry] at hset
    rw [Array.size_modify]
    exact h.known sink r hset
  gone r := by
    rw [isGone_of_report hentry, ← h.gone r, Array.getElem?_modify]
    split
    · simp
    · exact Iff.rfl
  waiting r queue hqueue := by
    rw [sent_of_report hentry, taken_of_report hentry, ht]
    rw [Array.getElem?_modify] at hqueue
    split at hqueue
    · rename_i hsame
      subst hsame
      obtain ⟨-, before, hbefore⟩ := h.queue_of_target ht
      rw [hbefore] at hqueue
      obtain rfl := Option.some.inj (Option.some.inj hqueue)
      simp [h.waiting receiver before hbefore]
    · rename_i hother
      simp [h.waiting r queue hqueue, hother]
  unknown r hle := by
    rw [Array.size_modify] at hle
    obtain ⟨hsent, htaken⟩ := h.unknown r hle
    have hother : receiver ≠ r := by
      obtain ⟨-, queue, hqueue⟩ := h.queue_of_target ht
      have hlt := (Array.getElem?_eq_some_iff.mp hqueue).1
      omega
    rw [sent_of_report hentry, taken_of_report hentry, ht]
    exact ⟨by simp [hsent, hother], htaken⟩
  dropped sink := by
    rw [losses_of_report hentry, ht]
    simpa using h.dropped sink

theorem report_lost (h : Kept of past w) (hentry : entry.report? = some (clone, event))
    (ht : target of (of clone) past = none) :
    Kept of (entry :: past) { w with
      sinks := Function.update w.sinks (of clone)
        ⟨(w.sinks (of clone)).current, (w.sinks (of clone)).dropped + 1⟩ } where
  current sink := by
    rw [lastSet_of_report hentry]
    by_cases hs : sink = of clone
    · subst hs
      simpa using h.current (of clone)
    · simpa [Function.update_of_ne hs] using h.current sink
  known sink r hset := by
    rw [lastSet_of_report hentry] at hset
    exact h.known sink r hset
  gone r := by
    rw [isGone_of_report hentry]
    exact h.gone r
  waiting r queue hqueue := by
    rw [sent_of_report hentry, taken_of_report hentry, ht]
    simpa using h.waiting r queue hqueue
  unknown r hle := by
    rw [sent_of_report hentry, taken_of_report hentry, ht]
    simpa using h.unknown r hle
  dropped sink := by
    rw [losses_of_report hentry, ht]
    by_cases hs : sink = of clone
    · subst hs
      simp [h.dropped]
    · simp [Function.update_of_ne hs, Ne.symm hs, h.dropped]

theorem report (h : Kept of past w) (hentry : entry.report? = some (clone, event)) :
    Kept of (entry :: past) (w.report (of clone) event) := by
  cases ht : target of (of clone) past with
  | some receiver =>
      rw [h.report_of_target ht]
      exact h.report_waits hentry ht
  | none =>
      rw [h.report_of_lost ht]
      exact h.report_lost hentry ht

theorem running (h : Kept of past w) (runs : List (κ × List Event)) : Kept of past { w with running := runs } :=
  ⟨h.current, h.known, h.gone, h.waiting, h.unknown, h.dropped⟩

theorem dispatch (h : Kept of past w) (call : DispatchCall) : Kept of (.dispatched call :: past) w where
  current := h.current
  known := h.known
  gone := h.gone
  waiting := (h.quiet rfl fun _ => rfl).1
  unknown := (h.quiet rfl fun _ => rfl).2.1
  dropped := (h.quiet rfl fun _ => rfl).2.2

end Kept

theorem Reached.kept (h : Reached of past w) : Kept of past w := by
  induction h with
  | start => exact .empty of
  | create _ ih => exact ih.create
  | set _ clone hr ih => exact ih.set clone hr
  | drop _ hr ih => exact ih.drop hr
  | take _ hr ih => exact ih.take hr
  | dispatch _ _ call ih => exact (ih.dispatch call).running _
  | bring _ _ _ ih => exact (ih.running _).report rfl
  | report _ clone event ih => exact ih.report rfl

end Post

end Hashboard
