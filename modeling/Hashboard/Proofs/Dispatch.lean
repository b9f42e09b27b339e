import Hashboard.Dispatch
import Hashboard.Proofs.InFlight
import Hashboard.Proofs.Reply

/-!
# Dispatch record by record

Of a receive buffer only the records matter. Each brings exactly one event, which hangs on the table as the
records in front of it have left it, and only finished work changes the table.
-/

namespace Hashboard

/-- The record tells that the search of the item with this id has ended. -/
def ReplyRecord.ends (r : ReplyRecord) (id : UInt16) : Prop :=
  r.kind = .done ∧ r.id = id

instance (r : ReplyRecord) (id : UInt16) : Decidable (r.ends id) :=
  inferInstanceAs (Decidable (_ ∧ _))

namespace InFlight

variable {t : InFlight} {cores : CoreMap}

/-! ## One record -/

/-- The table after a record: finished work leaves it. -/
def retire (t : InFlight) (r : ReplyRecord) : InFlight :=
  match r.kind with
  | .nonce => t
  | .done => (t.remove r.id).2

def eventOf (t : InFlight) (cores : CoreMap) (r : ReplyRecord) : Event :=
  match t.get? r.id, r.kind, cores.resolve r.address with
  | some item, .nonce, some core => .nonce core item r.nonce
  | some _, .done, some core => .completed core Wire.hashesPerWork
  | _, kind, core => .hardwareError core (if kind = .nonce then some r.nonce else none)

def tally (t : InFlight) (cores : CoreMap) (s : DispatchSummary) (r : ReplyRecord) : DispatchSummary :=
  let known := (t.get? r.id).isSome && (cores.resolve r.address).isSome
  { nonces := s.nonces + (known && r.kind == .nonce).toUInt32
    completed := s.completed + (known && r.kind == .done).toUInt32
    unknown := s.unknown + (t.get? r.id).isNone.toUInt32
    unresolved := s.unresolved + (cores.resolve r.address).isNone.toUInt32 }

theorem record_eq (device : String) (cores : CoreMap) (d : Dispatched) (r : ReplyRecord) :
    (d.record device cores r).table = d.table.retire r ∧
      (d.record device cores r).events = d.events.push (d.table.eventOf cores r) ∧
      (d.record device cores r).summary = d.table.tally cores d.summary r := by
  have hgone : d.table.get? r.id = none → (d.table.remove r.id).2 = d.table := remove_of_none
  unfold Dispatched.record retire eventOf tally
  cases hc : cores.resolve r.address <;> cases hg : d.table.get? r.id <;> cases hk : r.kind <;>
    simp_all [Dispatched.count, Dispatched.note, Dispatched.report, Bool.toUInt32]

/-! ## All records -/

/-- The events of records that come one after the other. -/
def eventsOf (cores : CoreMap) : InFlight → List ReplyRecord → List Event
  | _, [] => []
  | t, r :: rs => t.eventOf cores r :: eventsOf cores (t.retire r) rs

/-- The summary of records that come one after the other, on top of `s`. -/
def tallyAll (cores : CoreMap) : InFlight → DispatchSummary → List ReplyRecord → DispatchSummary
  | _, s, [] => s
  | t, s, r :: rs => tallyAll cores (t.retire r) (t.tally cores s r) rs

def retireAll (t : InFlight) (rs : List ReplyRecord) : InFlight :=
  rs.foldl retire t

theorem foldl_slot (device : String) (cores : CoreMap) (slots : List (List UInt8)) (d : Dispatched) :
    let rs := slots.filterMap ReplyRecord.decode?
    let d' := slots.foldl (fun d bytes => d.slot device cores bytes) d
    d'.table = d.table.retireAll rs ∧
      d'.events.toList = d.events.toList ++ d.table.eventsOf cores rs ∧
      d'.summary = d.table.tallyAll cores d.summary rs := by
  induction slots generalizing d with
  | nil => simp [retireAll, eventsOf, tallyAll]
  | cons bytes slots ih =>
      -- a notice about the slot's bytes changes nothing of what is stated here
      let noted := if ReplyRecord.slotTag bytes = 0 then d else d.note (.slot device bytes)
      have hsame : noted.table = d.table ∧ noted.events = d.events ∧ noted.summary = d.summary := by
        simp only [noted]; split <;> exact ⟨rfl, rfl, rfl⟩
      obtain ⟨ht, he, hs⟩ := hsame
      rw [List.foldl_cons]
      cases hd : ReplyRecord.decode? bytes with
      | none =>
          have hslot : d.slot device cores bytes = noted := by simp [Dispatched.slot, hd, noted]
          have h := ih noted
          rw [ht, he, hs] at h
          simpa [hslot, hd] using h
      | some r =>
          have hslot : d.slot device cores bytes = noted.record device cores r := by
            simp [Dispatched.slot, hd, noted]
          obtain ⟨h₁, h₂, h₃⟩ := record_eq device cores noted r
          have h := ih (noted.record device cores r)
          rw [h₁, h₂, h₃, ht, he, hs] at h
          simpa [hslot, hd, retireAll, eventsOf, tallyAll, List.filterMap_cons] using h

variable {device : String} {rx : List UInt8}

theorem dispatch_table : (dispatch device cores t rx).table = t.retireAll (Reply.records rx) :=
  (foldl_slot device cores (Reply.slots rx) (.start t)).1

theorem dispatch_events :
    (dispatch device cores t rx).events.toList = t.eventsOf cores (Reply.records rx) :=
  (foldl_slot device cores (Reply.slots rx) (.start t)).2.1.trans (List.nil_append _)

theorem dispatch_summary :
    (dispatch device cores t rx).summary = t.tallyAll cores .zero (Reply.records rx) :=
  (foldl_slot device cores (Reply.slots rx) (.start t)).2.2

/-! ## Records in parts -/

theorem retireAll_append {front behind : List ReplyRecord} :
    t.retireAll (front ++ behind) = (t.retireAll front).retireAll behind :=
  List.foldl_append

theorem eventsOf_append {front behind : List ReplyRecord} :
    t.eventsOf cores (front ++ behind) =
      t.eventsOf cores front ++ (t.retireAll front).eventsOf cores behind := by
  induction front generalizing t with
  | nil => rfl
  | cons r rs ih => simpa [eventsOf, retireAll] using ih (t := t.retire r)

theorem tallyAll_append {front behind : List ReplyRecord} {s : DispatchSummary} :
    t.tallyAll cores s (front ++ behind) =
      (t.retireAll front).tallyAll cores (t.tallyAll cores s front) behind := by
  induction front generalizing t s with
  | nil => rfl
  | cons r rs ih => exact ih (t := t.retire r) (s := t.tally cores s r)

/-! ## What is left of the table -/

theorem Sound.retire (h : t.Sound) (r : ReplyRecord) : (t.retire r).Sound := by
  unfold InFlight.retire
  cases r.kind with
  | nonce => exact h
  | done => exact h.remove r.id

theorem Sound.retireAll (h : t.Sound) (rs : List ReplyRecord) : (t.retireAll rs).Sound := by
  induction rs generalizing t with
  | nil => exact h
  | cons r rs ih => exact ih (h.retire r)

@[simp] theorem nextId_retire {r} : (t.retire r).nextId = t.nextId := by
  unfold InFlight.retire; cases r.kind <;> simp

@[simp] theorem nextId_retireAll {rs} : (t.retireAll rs).nextId = t.nextId := by
  induction rs generalizing t with
  | nil => rfl
  | cons r rs ih => exact (ih).trans nextId_retire

@[simp] theorem nextSeq_retireAll {rs} : (t.retireAll rs).nextSeq = t.nextSeq := by
  induction rs generalizing t with
  | nil => rfl
  | cons r rs ih =>
      refine ih.trans ?_
      unfold InFlight.retire
      cases r.kind <;> simp

theorem get?_retire {r : ReplyRecord} {id} :
    (t.retire r).get? id = if r.ends id then none else t.get? id := by
  unfold InFlight.retire
  split <;> rename_i hk <;> simp [ReplyRecord.ends, hk, get?_remove]

theorem get?_retireAll {rs : List ReplyRecord} {id} :
    (t.retireAll rs).get? id = if ∃ r ∈ rs, r.ends id then none else t.get? id := by
  induction rs generalizing t with
  | nil => simp [InFlight.retireAll]
  | cons r rs ih =>
      have h := ih (t := t.retire r)
      simp only [InFlight.retireAll, List.foldl_cons] at h ⊢
      rw [h, get?_retire]
      by_cases h₁ : r.ends id <;> by_cases h₂ : ∃ r ∈ rs, r.ends id <;> simp [h₁, h₂]

theorem Sound.rows_retire (h : t.Sound) (r : ReplyRecord) :
    (t.retire r).rows = t.rows.filter fun row => ¬ r.ends row.2.1 := by
  unfold InFlight.retire
  cases hk : r.kind with
  | nonce => simp [ReplyRecord.ends, hk]
  | done =>
      simp only [h.rows_remove]
      refine List.filter_congr ?_
      intro row _
      simp [ReplyRecord.ends, hk, eq_comm]

theorem Sound.live_retire (h : t.Sound) (r : ReplyRecord) :
    (t.retire r).live = t.live.filter fun p => ¬ r.ends p.1 := by
  rw [live_eq, live_eq, h.rows_retire, List.filter_map]
  rfl

/-- Exactly the entries go whose search is told to have ended, and the others stay in order. -/
theorem Sound.rows_retireAll (h : t.Sound) (rs : List ReplyRecord) :
    (t.retireAll rs).rows = t.rows.filter fun row => ¬ ∃ r ∈ rs, r.ends row.2.1 := by
  induction rs generalizing t with
  | nil => simp [InFlight.retireAll]
  | cons r rs ih =>
      refine (ih (h.retire r)).trans ?_
      rw [h.rows_retire, List.filter_filter]
      refine List.filter_congr ?_
      intro row _
      by_cases hr : r.ends row.2.1 <;> simp [hr]

theorem Sound.live_retireAll (h : t.Sound) (rs : List ReplyRecord) :
    (t.retireAll rs).live = t.live.filter fun p => ¬ ∃ r ∈ rs, r.ends p.1 := by
  rw [live_eq, live_eq, h.rows_retireAll, List.filter_map]
  rfl

theorem Sound.live_retireAll_sublist (h : t.Sound) (rs : List ReplyRecord) :
    (t.retireAll rs).live.Sublist t.live := by
  rw [h.live_retireAll]
  exact List.filter_sublist

theorem mem_live_retireAll (h : t.Sound) {rs : List ReplyRecord} {p} (hp : p ∈ (t.retireAll rs).live) :
    p ∈ t.live :=
  (h.live_retireAll_sublist rs).subset hp

/-! ## Single events -/

theorem eventOf_nonce {r : ReplyRecord} (h : r.kind = .nonce) {core item} :
    t.eventOf cores r = .nonce core item r.nonce ↔
      cores.resolve r.address = some core ∧ t.get? r.id = some item := by
  unfold eventOf
  rw [h]
  cases t.get? r.id <;> cases cores.resolve r.address <;> simp [and_comm]

theorem eventOf_error {r : ReplyRecord} (h : r.kind = .nonce)
    (hnone : ¬ ∃ core item, cores.resolve r.address = some core ∧ t.get? r.id = some item) :
    t.eventOf cores r = .hardwareError (cores.resolve r.address) (some r.nonce) := by
  unfold eventOf
  rw [h]
  cases hg : t.get? r.id with
  | none => simp
  | some item =>
      cases hc : cores.resolve r.address with
      | none => simp
      | some core => exact absurd ⟨core, item, hc, hg⟩ hnone

@[simp] theorem eventsOf_length {rs} : (t.eventsOf cores rs).length = rs.length := by
  induction rs generalizing t with
  | nil => rfl
  | cons r rs ih => simp [eventsOf, ih]

theorem eventsOf_getElem? {rs : List ReplyRecord} {j : Nat} :
    (t.eventsOf cores rs)[j]? = rs[j]?.map ((t.retireAll (rs.take j)).eventOf cores) := by
  induction rs generalizing t j with
  | nil => simp [eventsOf]
  | cons r rs ih =>
      cases j with
      | zero => simp [eventsOf, retireAll]
      | succ j => simpa [eventsOf, retireAll] using ih (t := t.retire r) (j := j)

end InFlight

end Hashboard
