import Hashboard.Proofs.Dispatch
import Hashboard.Proofs.Mailbox
import Hashboard.Proofs.ReplyRoundTrip

/-!
# What the records of a reply find

A record finds the item that holds its id, if the item is still on the boards. That can be told from the table
as it was at the start: none of the records in front may tell that the same search has ended. The event of a
record and all counts hang on what it finds, so a dispatch has a closed form (`dispatch_closed`).
-/

namespace Hashboard

namespace Event

def isNonce : Event → Bool
  | nonce .. => true
  | _ => false

def isCompleted : Event → Bool
  | completed .. => true
  | _ => false

def isHardwareError : Event → Bool
  | hardwareError .. => true
  | _ => false

end Event

/-- An empty slot has neither of the two tags. -/
theorem ReplyRecord.decode?_eq_none_iff {slot : List UInt8} (h : slot.length = Wire.recordLength) :
    decode? slot = none ↔ slotTag slot ≠ 1 ∧ slotTag slot ≠ 2 := by
  have hlong : ¬ slot.length < Wire.recordLength := h ▸ Nat.lt_irrefl _
  rw [decode?, if_neg hlong, Option.map_eq_none_iff, ReplyKind.ofTag?]
  by_cases h₁ : slotTag slot = 1 <;> by_cases h₂ : slotTag slot = 2 <;> simp [h₁, h₂]

/-- A record, and the item that it is about if that is on the boards. -/
structure Finding where
  record : ReplyRecord
  item : Option Item
  deriving DecidableEq, Repr

namespace Finding

variable (cores : CoreMap)

def resolved (f : Finding) : Bool :=
  (cores.resolve f.record.address).isSome

/-- Both the item and the core are known, and the record is of this kind. -/
def confirms (kind : ReplyKind) (f : Finding) : Bool :=
  (f.item.isSome && f.resolved cores) && f.record.kind == kind

def event (f : Finding) : Event :=
  match f.item, f.record.kind, cores.resolve f.record.address with
  | some item, .nonce, some core => .nonce core item f.record.nonce
  | some _, .done, some core => .completed core Wire.hashesPerWork
  | _, kind, core => .hardwareError core (if kind = .nonce then some f.record.nonce else none)

/-- What the counters come to: they may have gone round. -/
def summary (fs : List Finding) : DispatchSummary where
  nonces := .ofNat (fs.countP (confirms cores .nonce))
  completed := .ofNat (fs.countP (confirms cores .done))
  unknown := .ofNat (fs.countP fun f => f.item.isNone)
  unresolved := .ofNat (fs.countP fun f => !f.resolved cores)

variable {cores} {f : Finding}

/-- All that a record can bring: what it reports of an item and a core that are both known, or an error. -/
theorem event_cases (cores : CoreMap) (f : Finding) :
    (∃ item core, f.item = some item ∧ cores.resolve f.record.address = some core ∧
        ((f.record.kind = .nonce ∧ f.event cores = .nonce core item f.record.nonce) ∨
          (f.record.kind = .done ∧ f.event cores = .completed core Wire.hashesPerWork))) ∨
      (¬ (f.item.isSome ∧ f.resolved cores) ∧ f.event cores =
        .hardwareError (cores.resolve f.record.address)
          (if f.record.kind = .nonce then some f.record.nonce else none)) := by
  unfold event resolved
  cases hi : f.item with
  | none => simp
  | some item =>
      cases hc : cores.resolve f.record.address with
      | none => simp
      | some core => cases hk : f.record.kind <;> simp

theorem event_kinds (cores : CoreMap) (f : Finding) :
    (f.event cores).isNonce = f.confirms cores .nonce ∧
      (f.event cores).isCompleted = f.confirms cores .done ∧
      (f.event cores).isHardwareError = !(f.item.isSome && f.resolved cores) := by
  unfold event confirms resolved
  cases f.item <;> cases cores.resolve f.record.address <;> cases f.record.kind <;> exact ⟨rfl, rfl, rfl⟩

theorem countP_events (cores : CoreMap) (fs : List Finding) :
    (fs.map (event cores)).countP Event.isNonce = fs.countP (confirms cores .nonce) ∧
      (fs.map (event cores)).countP Event.isCompleted = fs.countP (confirms cores .done) := by
  rw [List.countP_map, List.countP_map]
  refine ⟨List.countP_congr ?_, List.countP_congr ?_⟩ <;> intro f _ <;> rw [Function.comp_apply]
  · rw [(event_kinds cores f).1]
  · rw [(event_kinds cores f).2.1]

/-- Every record brings one event: a nonce, completed work, or a hardware error. -/
theorem countP_total (cores : CoreMap) (fs : List Finding) :
    (fs.map (event cores)).countP Event.isNonce + (fs.map (event cores)).countP Event.isCompleted +
      (fs.map (event cores)).countP Event.isHardwareError = fs.length := by
  obtain ⟨hnonces, hcompleted⟩ := countP_events cores fs
  rw [hnonces, hcompleted]
  clear hnonces hcompleted
  induction fs with
  | nil => rfl
  | cons f fs ih =>
      have herror := (event_kinds cores f).2.2
      simp only [List.countP_map, List.map_cons, List.countP_cons, List.length_cons, herror] at ih ⊢
      cases hknown : f.item.isSome && f.resolved cores with
      | false => simp [confirms, hknown]; omega
      | true => cases hk : f.record.kind <;> simp [confirms, hknown, hk] <;> omega

end Finding

namespace InFlight

variable {t : InFlight} {cores : CoreMap}

/-! ## Findings one after the other -/

/-- What the records find, each in the table that the records in front of it have left. -/
def findings : InFlight → List ReplyRecord → List Finding
  | _, [] => []
  | t, r :: rs => ⟨r, t.get? r.id⟩ :: findings (t.retire r) rs

theorem eventsOf_eq (t : InFlight) (cores : CoreMap) (rs : List ReplyRecord) :
    t.eventsOf cores rs = (t.findings rs).map (Finding.event cores) := by
  induction rs generalizing t with
  | nil => rfl
  | cons r rs ih =>
      rw [eventsOf, findings, List.map_cons, ih]
      rfl

theorem tallyAll_eq (t : InFlight) (cores : CoreMap) (s : DispatchSummary) (rs : List ReplyRecord) :
    let found := Finding.summary cores (t.findings rs)
    t.tallyAll cores s rs =
      ⟨s.nonces + found.nonces, s.completed + found.completed, s.unknown + found.unknown,
        s.unresolved + found.unresolved⟩ := by
  induction rs generalizing t s with
  | nil => simp [tallyAll, findings, Finding.summary]
  | cons r rs ih =>
      have hcount : ∀ (n : Nat) (b : Bool),
          UInt32.ofNat (n + if b = true then 1 else 0) = b.toUInt32 + UInt32.ofNat n := by
        intro n b
        cases b <;> simp [Bool.toUInt32, UInt32.add_comm]
      simp only [tallyAll, findings, Finding.summary, List.countP_cons, hcount, ih, ← UInt32.add_assoc]
      simp only [tally, Finding.confirms, Finding.resolved, Option.not_isSome]

/-! ## Findings told from the start -/

/-- The record behind these is about an item of the table: its id is taken, and none of the records in front
tells that the search under it has ended. -/
def Known (t : InFlight) (front : List ReplyRecord) (r : ReplyRecord) : Prop :=
  (t.get? r.id).isSome ∧ ∀ earlier ∈ front, ¬ earlier.ends r.id

instance (t : InFlight) (front : List ReplyRecord) (r : ReplyRecord) : Decidable (t.Known front r) :=
  inferInstanceAs (Decidable (_ ∧ _))

theorem isSome_get?_retireAll {front : List ReplyRecord} {r : ReplyRecord} :
    ((t.retireAll front).get? r.id).isSome ↔ t.Known front r := by
  rw [get?_retireAll, Known]
  by_cases hends : ∃ earlier ∈ front, earlier.ends r.id
  · rw [if_pos hends]
    obtain ⟨earlier, hmem, he⟩ := hends
    simp only [Option.isSome_none, Bool.false_eq_true, false_iff, not_and]
    intro _ hnone
    exact hnone earlier hmem he
  · rw [if_neg hends]
    simp only [not_exists, not_and] at hends
    exact (and_iff_left hends).symm

theorem Known.get?_eq {front : List ReplyRecord} {r : ReplyRecord} (h : t.Known front r) :
    (t.retireAll front).get? r.id = t.get? r.id := by
  rw [get?_retireAll, if_neg]
  rintro ⟨earlier, hmem, he⟩
  exact h.2 earlier hmem he

theorem findings_getElem? (t : InFlight) (rs : List ReplyRecord) (j : Nat) :
    (t.findings rs)[j]? = rs[j]?.map fun r => ⟨r, (t.retireAll (rs.take j)).get? r.id⟩ := by
  induction rs generalizing t j with
  | nil => rfl
  | cons r rs ih =>
      cases j with
      | zero => rfl
      | succ j => simpa [findings, retireAll] using ih (t.retire r) j

/-- Which records are about an item of the table, told from the start. -/
theorem map_isSome_findings (t : InFlight) (rs : List ReplyRecord) :
    (t.findings rs).map (fun f => f.item.isSome) = rs.mapIdx fun j r => decide (t.Known (rs.take j) r) := by
  refine List.ext_getElem? ?_
  intro j
  rw [List.getElem?_map, findings_getElem?, Option.map_map, List.getElem?_mapIdx]
  congr
  funext r
  rw [Function.comp_apply, Bool.eq_iff_iff, decide_eq_true_eq]
  exact isSome_get?_retireAll

theorem map_record_findings (t : InFlight) (rs : List ReplyRecord) :
    (t.findings rs).map Finding.record = rs := by
  induction rs generalizing t with
  | nil => rfl
  | cons r rs ih => rw [findings, List.map_cons, ih]

theorem countP_unresolved (t : InFlight) (cores : CoreMap) (rs : List ReplyRecord) :
    ((t.findings rs).countP fun f => !f.resolved cores) =
      rs.countP fun r => (cores.resolve r.address).isNone := by
  conv_rhs => rw [← map_record_findings t rs, List.countP_map]
  refine List.countP_congr ?_
  intro f _
  simp [Finding.resolved]

theorem countP_unknown (t : InFlight) (rs : List ReplyRecord) :
    ((t.findings rs).countP fun f => f.item.isNone) =
      (rs.mapIdx fun j r => decide (t.Known (rs.take j) r)).count false := by
  rw [← map_isSome_findings, List.count, List.countP_map]
  refine List.countP_congr ?_
  intro f _
  cases hi : f.item <;> simp [hi]

/-! ## The whole dispatch -/

variable {device : String} {rx : List UInt8}

theorem dispatch_events_eq :
    (dispatch device cores t rx).events.toList =
      (t.findings (Reply.records rx)).map (Finding.event cores) := by
  rw [dispatch_events, eventsOf_eq]

theorem dispatch_summary_eq :
    (dispatch device cores t rx).summary = Finding.summary cores (t.findings (Reply.records rx)) := by
  rw [dispatch_summary, tallyAll_eq]
  simp [DispatchSummary.zero]

/-- The counters of a reply with fewer than 2 ^ 32 records tell how many there are. -/
theorem toNat_dispatch_summary (h : (Reply.records rx).length < UInt32.size) :
    let found := t.findings (Reply.records rx)
    let s := (dispatch device cores t rx).summary
    s.nonces.toNat = found.countP (Finding.confirms cores .nonce) ∧
      s.completed.toNat = found.countP (Finding.confirms cores .done) ∧
      s.unknown.toNat = (found.countP fun f => f.item.isNone) ∧
      s.unresolved.toNat = found.countP fun f => !f.resolved cores := by
  intro found s
  have hs : s = Finding.summary cores found := dispatch_summary_eq
  have hlength : found.length < UInt32.size := by
    rw [← List.length_map Finding.record, map_record_findings]
    exact h
  have hcount : ∀ p : Finding → Bool, (UInt32.ofNat (found.countP p)).toNat = found.countP p :=
    fun p => UInt32.toNat_ofNat_of_lt' (Nat.lt_of_le_of_lt List.countP_le_length hlength)
  rw [hs]
  exact ⟨hcount _, hcount _, hcount _, hcount _⟩

theorem dispatch_events_getElem? {j : Nat} {r : ReplyRecord} (hr : (Reply.records rx)[j]? = some r) :
    (dispatch device cores t rx).events[j]? =
      some (Finding.event cores ⟨r, (t.retireAll ((Reply.records rx).take j)).get? r.id⟩) := by
  rw [← Array.getElem?_toList, dispatch_events_eq, List.getElem?_map, findings_getElem?, hr]
  rfl

theorem event_of_known {j : Nat} {r : ReplyRecord} (hr : (Reply.records rx)[j]? = some r)
    (hk : t.Known ((Reply.records rx).take j) r) {item : Item} (hi : t.get? r.id = some item) {core : CoreId}
    (hc : cores.resolve r.address = some core) :
    (dispatch device cores t rx).events[j]? = some (match r.kind with
      | .nonce => .nonce core item r.nonce
      | .done => .completed core 4294967296) := by
  rw [dispatch_events_getElem? hr, hk.get?_eq, hi, Finding.event]
  simp only [hc]
  cases r.kind <;> rfl

theorem event_of_unknown {j : Nat} {r : ReplyRecord} (hr : (Reply.records rx)[j]? = some r)
    (h : ¬ (t.Known ((Reply.records rx).take j) r ∧ (cores.resolve r.address).isSome)) :
    (dispatch device cores t rx).events[j]? =
      some (.hardwareError (cores.resolve r.address) (match r.kind with
        | .nonce => some r.nonce
        | .done => none)) := by
  rw [dispatch_events_getElem? hr]
  rcases Finding.event_cases cores ⟨r, (t.retireAll ((Reply.records rx).take j)).get? r.id⟩ with
    ⟨item, core, hi, hc, _⟩ | ⟨_, he⟩
  · have hknown := isSome_get?_retireAll.mp (Option.isSome_of_eq_some hi)
    exact absurd ⟨hknown, Option.isSome_of_eq_some hc⟩ h
  · rw [he]
    cases r.kind <;> rfl

/-- Completed work is reported only by a record that tells the end of a search not yet told to have ended. -/
theorem known_of_completed {j : Nat} {r : ReplyRecord} (hr : (Reply.records rx)[j]? = some r) {core : CoreId}
    {hashes : UInt64} (he : (dispatch device cores t rx).events[j]? = some (.completed core hashes)) :
    t.Known ((Reply.records rx).take j) r ∧ r.kind = .done := by
  rw [dispatch_events_getElem? hr, Option.some.injEq] at he
  rcases Finding.event_cases cores ⟨r, (t.retireAll ((Reply.records rx).take j)).get? r.id⟩ with
    ⟨item, _, hi, _, ⟨_, hnonce⟩ | ⟨hk, _⟩⟩ | ⟨_, herror⟩
  · rw [hnonce] at he
    cases he
  · exact ⟨isSome_get?_retireAll.mp (Option.isSome_of_eq_some hi), hk⟩
  · rw [herror] at he
    cases he

/-- No later record reports the same item completed. -/
theorem not_completed_again {i j : Nat} {r r' : ReplyRecord} (hr : (Reply.records rx)[i]? = some r)
    (hr' : (Reply.records rx)[j]? = some r') (hid : r.id = r'.id) {core core' : CoreId} {hashes hashes' : UInt64}
    (he : (dispatch device cores t rx).events[i]? = some (.completed core hashes))
    (he' : (dispatch device cores t rx).events[j]? = some (.completed core' hashes')) : ¬ i < j := by
  intro hlt
  have hfront : r ∈ (Reply.records rx).take j := by
    refine List.mem_of_getElem? (i := i) ?_
    rw [List.getElem?_take, if_pos hlt]
    exact hr
  exact (known_of_completed hr' he').1.2 r hfront ⟨(known_of_completed hr he).2, hid⟩

/-- A dispatch in closed form, told from the table at its start and a mailbox with a receiver. -/
theorem dispatch_closed (ht : t.Sound) (device : String) (cores : CoreMap) (rx : List UInt8) {m : Mailbox}
    {receiver : Nat} {waiting : List Event} (hm : m.Feeds receiver waiting) :
    let rs := Reply.records rx
    let d := dispatch device cores t rx
    ((m.putAll d.events.toList).Feeds receiver (waiting ++ d.events.toList) ∧
      (m.putAll d.events.toList).dropped = m.dropped) ∧
    d.events.size = rs.length ∧
    (∀ (j : Nat) (r : ReplyRecord), rs[j]? = some r →
      (∀ item core, t.Known (rs.take j) r → t.get? r.id = some item → cores.resolve r.address = some core →
        d.events[j]? = some (match r.kind with
          | .nonce => .nonce core item r.nonce
          | .done => .completed core 4294967296)) ∧
      (¬ (t.Known (rs.take j) r ∧ (cores.resolve r.address).isSome) →
        d.events[j]? = some (.hardwareError (cores.resolve r.address) (match r.kind with
          | .nonce => some r.nonce
          | .done => none)))) ∧
    ((∀ id, d.table.get? id = if ∃ r ∈ rs, r.kind = .done ∧ r.id = id then none else t.get? id) ∧
      d.table.live = t.live.filter (fun p => ¬ ∃ r ∈ rs, r.kind = .done ∧ r.id = p.1) ∧
      d.table.nextId = t.nextId) ∧
    (∀ (i j : Nat) (r r' : ReplyRecord) (core core' : CoreId) (hashes hashes' : UInt64),
      rs[i]? = some r → rs[j]? = some r' → r.id = r'.id → d.events[i]? = some (.completed core hashes) →
        d.events[j]? = some (.completed core' hashes') → i = j) ∧
    (d.summary.unresolved = .ofNat (rs.countP fun r => (cores.resolve r.address).isNone) ∧
      d.summary.unknown = .ofNat ((rs.mapIdx fun j r => decide (t.Known (rs.take j) r)).count false) ∧
      d.summary.nonces = .ofNat (d.events.toList.countP Event.isNonce) ∧
      d.summary.completed = .ofNat (d.events.toList.countP Event.isCompleted) ∧
      d.summary.nonces + d.summary.completed + .ofNat (d.events.toList.countP Event.isHardwareError) =
        .ofNat rs.length) ∧
    (rs.length < UInt32.size →
      d.summary.unresolved.toNat = rs.countP (fun r => (cores.resolve r.address).isNone) ∧
      d.summary.unknown.toNat = (rs.mapIdx fun j r => decide (t.Known (rs.take j) r)).count false ∧
      d.summary.nonces.toNat + d.summary.completed.toNat + d.events.toList.countP Event.isHardwareError =
        rs.length) ∧
    (∀ slot ∈ Reply.slots rx,
      ReplyRecord.decode? slot = none ↔ ReplyRecord.slotTag slot ≠ 1 ∧ ReplyRecord.slotTag slot ≠ 2) ∧
    ∀ rx', Reply.records rx' = rs →
      let d' := dispatch device cores t rx'
      d'.table = d.table ∧ d'.events.toList = d.events.toList ∧ d'.summary = d.summary := by
  intro rs d
  have hsummary : d.summary = Finding.summary cores (t.findings rs) := dispatch_summary_eq
  obtain ⟨hnonces, hcompleted⟩ := Finding.countP_events cores (t.findings rs)
  have htotal := Finding.countP_total cores (t.findings rs)
  have hlength : (t.findings rs).length = rs.length := by
    rw [← List.length_map Finding.record, map_record_findings]
  have hevents : d.events.toList = (t.findings rs).map (Finding.event cores) := dispatch_events_eq
  rw [← hevents] at hnonces hcompleted htotal
  rw [hlength] at htotal
  refine ⟨hm.putAll _, ?_, ?_, ⟨?_, ?_, ?_⟩, ?_, ⟨?_, ?_, ?_, ?_, ?_⟩, ?_, ?_, ?_⟩
  · rw [← Array.length_toList, dispatch_events, eventsOf_length]
  · intro j r hr
    exact ⟨fun _ _ hk hi hc => event_of_known hr hk hi hc, event_of_unknown hr⟩
  · intro id
    rw [dispatch_table]
    exact get?_retireAll
  · rw [dispatch_table]
    exact ht.live_retireAll rs
  · rw [dispatch_table, nextId_retireAll]
  · intro i j r r' core core' hashes hashes' hr hr' hid he he'
    have hle : ¬ j < i := not_completed_again hr' hr hid.symm he' he
    exact Nat.le_antisymm (Nat.not_lt.mp hle) (Nat.not_lt.mp (not_completed_again hr hr' hid he he'))
  · rw [hsummary, ← countP_unresolved t]
    rfl
  · rw [hsummary, ← countP_unknown]
    rfl
  · rw [hnonces, hsummary]
    rfl
  · rw [hcompleted, hsummary]
    rfl
  · rw [← htotal, UInt32.ofNat_add, UInt32.ofNat_add, hnonces, hcompleted, hsummary]
    rfl
  · intro hfew
    obtain ⟨hnonces', hcompleted', hunknown, hunresolved⟩ :=
      @toNat_dispatch_summary t cores device rx hfew
    rw [hunresolved, hunknown, hnonces', hcompleted', ← hnonces, ← hcompleted]
    exact ⟨countP_unresolved t cores rs, countP_unknown t rs, htotal⟩
  · intro slot hslot
    exact ReplyRecord.decode?_eq_none_iff (Reply.slot_length hslot)
  · intro rx' hrx'
    simp only [d, dispatch_table, dispatch_events, dispatch_summary, hrx', rs]
    exact ⟨trivial, trivial, trivial⟩

/-- The end of one search is told twice: the second time, the record is about no item. -/
theorem dispatch_closed_twice :
    let item : Item := ⟨0, .replicate Wire.midstateLength 0, .replicate Wire.dataLength 0, 1⟩
    let ended : ReplyRecord := ⟨.done, ⟨0, 0⟩, 0, 0⟩
    let d := dispatch "knc0" (CoreMap.empty.register 0 [3]).2 (empty.insertNext item).2.2
      (Reply.write Wire.transactionLength ⟨false, 0⟩ [ended, ended])
    d.events[0]? = some (.completed ⟨0⟩ 4294967296) ∧
      d.events[1]? = some (.hardwareError (some ⟨0⟩) none) ∧
      (Mailbox.empty.attach.putAll d.events.toList).dropped = 0 := by
  intro item ended d
  have ht : (empty.insertNext item).2.2.Sound := sound_empty.insertNext item
  have hm : Mailbox.empty.attach.Feeds 0 [] := ⟨rfl, rfl⟩
  have hrecords : Reply.records (Reply.write Wire.transactionLength ⟨false, 0⟩ [ended, ended]) =
      [ended, ended] := Reply.records_write_of_fits (by decide) (by decide) (by decide)
  have hfound : (empty.insertNext item).2.2.get? 0 = some item := get?_insertNext
  obtain ⟨⟨_, hdropped⟩, _, hevents, _⟩ := dispatch_closed ht "knc0" (CoreMap.empty.register 0 [3]).2
    (Reply.write Wire.transactionLength ⟨false, 0⟩ [ended, ended]) hm
  simp only [hrecords] at hevents
  refine ⟨(hevents 0 ended rfl).1 item ⟨0⟩ ⟨?_, ?_⟩ hfound (by decide), ?_, hdropped⟩
  · exact Option.isSome_of_eq_some hfound
  · simp
  · refine (hevents 1 ended rfl).2 ?_
    rintro ⟨⟨_, hopen⟩, _⟩
    exact hopen ended (by simp) ⟨rfl, rfl⟩

end InFlight

end Hashboard
