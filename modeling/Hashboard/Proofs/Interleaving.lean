import Mathlib.Data.List.NodupEquivFin
import Hashboard.Proofs.Findings

/-!
# Replies in another order

Records about different ids have nothing to do with each other: what one of them finds depends only on the
records in front of it that have its own id. A reply may therefore bring its records in any order that leaves
those about one id in theirs (`interleaving`).
-/

namespace Hashboard

/-! ## Interleaved records -/

/-- The same records in two lists, and any two about the same id in the same order. -/
def Interleaved (rs rs' : List ReplyRecord) : Prop :=
  ∃ place : Fin rs.length ≃ Fin rs'.length,
    (∀ i, rs'.get (place i) = rs.get i) ∧
      ∀ i j, i < j → (rs.get i).id = (rs.get j).id → place i < place j

namespace Interleaved

variable {rs rs' : List ReplyRecord}

theorem symm (h : Interleaved rs rs') : Interleaved rs' rs := by
  obtain ⟨place, hsame, hkeeps⟩ := h
  have hback : ∀ i, rs.get (place.symm i) = rs'.get i := by
    intro i
    rw [← hsame, Equiv.apply_symm_apply]
  refine ⟨place.symm, hback, ?_⟩
  intro i j hij hid
  rw [← hback, ← hback] at hid
  refine lt_of_not_ge fun hle => ?_
  rcases hle.eq_or_lt with heq | hlt
  · exact hij.ne (place.symm.injective heq.symm)
  · have hji := hkeeps _ _ hlt hid.symm
    rw [Equiv.apply_symm_apply, Equiv.apply_symm_apply] at hji
    exact hij.not_gt hji

private theorem filter_sublist (h : Interleaved rs rs') (id : UInt16) :
    (rs.filter (·.id = id)).Sublist (rs'.filter (·.id = id)) := by
  obtain ⟨place, hsame, hkeeps⟩ := h
  obtain ⟨nth, hnth⟩ := List.sublist_iff_exists_fin_orderEmbedding_get_eq.mp
    (List.filter_sublist (p := fun r : ReplyRecord => r.id = id) (l := rs))
  have hid : ∀ k, (rs.get (nth k)).id = id := by
    intro k
    rw [← hnth]
    exact of_decide_eq_true (List.mem_filter.mp (List.get_mem _ k)).2
  have hmono : StrictMono fun k => place (nth k) :=
    fun k l hkl => hkeeps _ _ (nth.strictMono hkl) ((hid k).trans (hid l).symm)
  have hsub : (rs.filter (·.id = id)).Sublist rs' :=
    List.sublist_iff_exists_fin_orderEmbedding_get_eq.mpr
      ⟨OrderEmbedding.ofStrictMono _ hmono, fun k => (hnth k).trans (hsame _).symm⟩
  simpa using hsub.filter (fun r : ReplyRecord => r.id = id)

theorem filter_eq (h : Interleaved rs rs') (id : UInt16) :
    rs.filter (·.id = id) = rs'.filter (·.id = id) :=
  (h.filter_sublist id).antisymm (h.symm.filter_sublist id)

end Interleaved

/-! ## What interleaved records find -/

theorem Finding.summary_perm {cores : CoreMap} {fs fs' : List Finding} (h : fs.Perm fs') :
    summary cores fs = summary cores fs' := by
  simp only [summary, h.countP_eq]

namespace InFlight

variable {t t' : InFlight} {cores : CoreMap} {rs rs' : List ReplyRecord}

/-- Findings hang only on what is known under the ids of the records. -/
theorem findings_congr (h : ∀ r ∈ rs, t.get? r.id = t'.get? r.id) : t.findings rs = t'.findings rs := by
  induction rs generalizing t t' with
  | nil => rfl
  | cons r rs ih =>
      have hrest : ∀ later ∈ rs, (t.retire r).get? later.id = (t'.retire r).get? later.id := by
        intro later hlater
        rw [get?_retire, get?_retire, h later (List.mem_cons_of_mem r hlater)]
      rw [findings, findings, h r List.mem_cons_self, ih hrest]

/-- The records about one id find the same without the others. -/
theorem filter_findings (t : InFlight) (rs : List ReplyRecord) (id : UInt16) :
    (t.findings rs).filter (·.record.id = id) = t.findings (rs.filter (·.id = id)) := by
  induction rs generalizing t with
  | nil => rfl
  | cons r rs ih =>
      rw [findings, List.filter_cons, List.filter_cons, ih]
      by_cases hid : r.id = id
      · rw [if_pos (decide_eq_true hid), if_pos (decide_eq_true hid), findings]
      · rw [if_neg (by simpa using hid), if_neg (by simpa using hid)]
        -- the record in front is about another id, so it takes nothing from these
        refine findings_congr fun later hlater => ?_
        have hother : later.id = id := of_decide_eq_true (List.mem_filter.mp hlater).2
        rw [get?_retire, if_neg]
        rintro ⟨_, hsame⟩
        exact hid (hsame.trans hother)

theorem filter_findings_eq (t : InFlight) (h : Interleaved rs rs') (id : UInt16) :
    (t.findings rs).filter (·.record.id = id) = (t.findings rs').filter (·.record.id = id) := by
  rw [filter_findings, filter_findings, h.filter_eq]

theorem findings_perm (t : InFlight) (h : Interleaved rs rs') : (t.findings rs).Perm (t.findings rs') := by
  refine List.perm_iff_count.mpr fun f => ?_
  have hown : ∀ fs : List Finding, fs.count f = (fs.filter (·.record.id = f.record.id)).count f := by
    intro fs
    rw [List.count_filter]
    exact decide_eq_true rfl
  rw [hown, filter_findings_eq t h, ← hown]

theorem Sound.live_interleaved (ht : t.Sound) (h : Interleaved rs rs') :
    (t.retireAll rs).live = (t.retireAll rs').live := by
  have hperm : rs.Perm rs' := by
    have hrecords := (findings_perm t h).map Finding.record
    rwa [map_record_findings, map_record_findings] at hrecords
  rw [ht.live_retireAll, ht.live_retireAll]
  simp only [hperm.mem_iff]

/-- The events of the records about one id, next to their records. -/
theorem filter_records_zip_events {device : String} {rx : List UInt8} (id : UInt16) :
    ((Reply.records rx).zip (dispatch device cores t rx).events.toList).filter (·.1.id = id) =
      ((t.findings (Reply.records rx)).filter (·.record.id = id)).map
        fun f => (f.record, f.event cores) := by
  rw [dispatch_events_eq]
  conv_lhs => enter [2, 1]; rw [← map_record_findings t (Reply.records rx)]
  rw [List.zip_map', List.filter_map]
  rfl

/-- A reply may bring its records in any order that leaves those about one id in theirs. -/
theorem interleaving (ht : t.Sound) (device : String) (cores : CoreMap) {rx rx' : List UInt8}
    (h : Interleaved (Reply.records rx) (Reply.records rx')) :
    let d := dispatch device cores t rx
    let d' := dispatch device cores t rx'
    d'.summary = d.summary ∧
      ((∀ id, d'.table.get? id = d.table.get? id) ∧ d'.table.ids = d.table.ids ∧
        d'.table.live = d.table.live ∧ d'.table.newest? = d.table.newest? ∧
        d'.table.size = d.table.size ∧ d'.table.nextId = d.table.nextId) ∧
      d'.events.toList.Perm d.events.toList ∧
      ∀ id, ((Reply.records rx').zip d'.events.toList).filter (·.1.id = id) =
        ((Reply.records rx).zip d.events.toList).filter (·.1.id = id) := by
  intro d d'
  have hperm := findings_perm t h.symm
  have hlive : d'.table.live = d.table.live := by
    rw [dispatch_table, dispatch_table, ht.live_interleaved h]
  have hsound : d.table.Sound := dispatch_table ▸ ht.retireAll _
  have hsound' : d'.table.Sound := dispatch_table ▸ ht.retireAll _
  refine ⟨?_, ⟨?_, ?_, hlive, ?_, ?_, ?_⟩, ?_, ?_⟩
  · rw [dispatch_summary_eq, dispatch_summary_eq, Finding.summary_perm hperm]
  · intro id
    refine Option.ext fun item => ?_
    rw [← hsound'.mem_live, hlive, hsound.mem_live]
  · rw [← hsound'.live_ids, hlive, hsound.live_ids]
  · rw [hsound'.newest?_eq, hlive, hsound.newest?_eq]
  · rw [hsound'.size_eq, hlive, hsound.size_eq]
  · rw [dispatch_table, dispatch_table, nextId_retireAll, nextId_retireAll]
  · rw [dispatch_events_eq, dispatch_events_eq]
    exact hperm.map _
  · intro id
    rw [filter_records_zip_events, filter_records_zip_events, filter_findings_eq t h]

/-- A nonce of the older item and the end of the newer one come in either order. -/
theorem interleaving_pair :
    let item : Item := ⟨0, .replicate Wire.midstateLength 0, .replicate Wire.dataLength 0, 1⟩
    let t := ((empty.insertNext item).2.2.insertNext item).2.2
    let found : ReplyRecord := ⟨.nonce, ⟨0, 0⟩, 0, 77⟩
    let ended : ReplyRecord := ⟨.done, ⟨0, 0⟩, 1, 0⟩
    let d := dispatch "knc0" (CoreMap.empty.register 0 [3]).2 t
      (Reply.write Wire.transactionLength ⟨false, 0⟩ [found, ended])
    let d' := dispatch "knc0" (CoreMap.empty.register 0 [3]).2 t
      (Reply.write Wire.transactionLength ⟨false, 0⟩ [ended, found])
    d'.summary = d.summary ∧ d'.table.newest? = d.table.newest? ∧ d'.events.toList.Perm d.events.toList := by
  intro item t found ended d d'
  have ht : t.Sound := (sound_empty.insertNext item).insertNext item
  have hrecords : ∀ rs ∈ [[found, ended], [ended, found]],
      Reply.records (Reply.write Wire.transactionLength ⟨false, 0⟩ rs) = rs := by
    intro rs hrs
    refine Reply.records_write_of_fits (by decide) ?_ ?_ <;> revert rs <;> decide
  have h : Interleaved [found, ended] [ended, found] := ⟨Equiv.swap 0 1, by decide, by decide⟩
  rw [← hrecords [found, ended] (by simp), ← hrecords [ended, found] (by simp)] at h
  obtain ⟨hsummary, ⟨_, _, _, hnewest, _, _⟩, hevents, _⟩ :=
    interleaving ht "knc0" (CoreMap.empty.register 0 [3]).2 h
  exact ⟨hsummary, hnewest, hevents⟩

end InFlight

end Hashboard
