import Hashboard.Proofs.InFlight

/-!
# Ids in a row

Ids are given out one after the other, round and round. As long as items leave from the front of the table,
the ids on the boards are the ones given out last, and the next ones are free.
-/

namespace Hashboard

namespace InFlight

variable {t : InFlight}

theorem Sound.idAt_zero (h : t.Sound) : t.idAt 0 = t.nextId := by
  rw [← UInt16.toNat_inj, idAt_toNat]
  exact Nat.mod_eq_of_lt h.nextId_lt

theorem idAt_insertNext {item} {k : Nat} : (t.insertNext item).2.2.idAt k = t.idAt (k + 1) := by
  rw [← UInt16.toNat_inj, idAt_toNat, idAt_toNat, nextId_insertNext, idAt_toNat]
  simp only [Wire.idSpace]
  omega

theorem idAt_inj {j k : Nat} (hj : j < Wire.idSpace) (hk : k < Wire.idSpace) (h : t.idAt j = t.idAt k) :
    j = k := by
  have h := congrArg UInt16.toNat h
  simp only [idAt_toNat, Wire.idSpace] at h hj hk
  omega

/-! ## The ids given out last -/

/-- The ids on the boards are the ones given out last, with none left out. -/
structure Consecutive (t : InFlight) : Prop where
  few : t.ids.length ≤ Wire.idSpace
  nth : ∀ k, k < t.ids.length → t.ids[k]? = some (t.idAt (Wire.idSpace - t.ids.length + k))

theorem consecutive_of_ids_nil (h : t.ids = []) : t.Consecutive where
  few := by simp [h]
  nth := by simp [h]

theorem consecutive_empty : empty.Consecutive :=
  consecutive_of_ids_nil ids_empty

theorem consecutive_clear (t : InFlight) : t.clear.Consecutive :=
  consecutive_of_ids_nil ids_clear

theorem Sound.get?_eq_none (h : t.Sound) {id : UInt16} : t.get? id = none ↔ id ∉ t.ids := by
  rw [← h.live_ids, List.mem_map, not_exists]
  constructor
  · rintro hn ⟨_, item⟩ ⟨hm, rfl⟩
    simp [h.mem_live.mp hm] at hn
  · intro hall
    cases hg : t.get? id with
    | none => rfl
    | some item => exact absurd ⟨h.mem_live.mpr hg, rfl⟩ (hall (id, item))

/-- The next ids are free, as many as there are left. -/
theorem Consecutive.free (hc : t.Consecutive) (hs : t.Sound) {k : Nat}
    (hk : k + t.ids.length < Wire.idSpace) : t.get? (t.idAt k) = none := by
  rw [hs.get?_eq_none, List.mem_iff_getElem?]
  rintro ⟨j, hj⟩
  obtain ⟨hlt, _⟩ := List.getElem?_eq_some_iff.mp hj
  rw [hc.nth j hlt, Option.some.injEq] at hj
  have := idAt_inj (by omega) (by omega) hj
  omega

/-- Items may leave from the front. -/
theorem Consecutive.drop (hc : t.Consecutive) {t' : InFlight} (hnext : t'.nextId = t.nextId)
    {gone : List UInt16} (hids : t.ids = gone ++ t'.ids) : t'.Consecutive := by
  have hlen : t.ids.length = gone.length + t'.ids.length := by rw [hids, List.length_append]
  have hfew := hc.few
  refine ⟨by omega, ?_⟩
  intro k hk
  have hnth := hc.nth (gone.length + k) (by omega)
  rw [hids, List.getElem?_append_right (by omega), ← hids, Nat.add_sub_cancel_left] at hnth
  rw [hnth, idAt, idAt, hnext]
  congr 4
  omega

theorem Consecutive.live_insertNext (hc : t.Consecutive) (hs : t.Sound)
    (hroom : t.ids.length < Wire.idSpace) (item : Item) :
    (t.insertNext item).2.2.live = t.live ++ [(t.nextId, item)] := by
  have hfree := hc.free hs (k := 0) (by omega)
  rw [hs.idAt_zero, hs.get?_eq_none, ← hs.live_ids] at hfree
  rw [hs.live_insertNext, List.filter_eq_self.mpr]
  intro p hp
  rw [decide_eq_true_eq]
  rintro he
  exact hfree (he ▸ List.mem_map_of_mem hp)

theorem Consecutive.insertNext (hc : t.Consecutive) (hs : t.Sound)
    (hroom : t.ids.length < Wire.idSpace) (item : Item) : (t.insertNext item).2.2.Consecutive := by
  have hids : (t.insertNext item).2.2.ids = t.ids ++ [t.nextId] := by
    rw [← (hs.insertNext item).live_ids, hc.live_insertNext hs hroom, List.map_append, hs.live_ids]
    rfl
  have hlen : (t.insertNext item).2.2.ids.length = t.ids.length + 1 := by
    rw [hids, List.length_append, List.length_singleton]
  refine ⟨by omega, ?_⟩
  intro k hk
  rw [idAt_insertNext, hlen, hids]
  rcases Nat.lt_succ_iff_lt_or_eq.mp (hlen ▸ hk) with hold | rfl
  · rw [List.getElem?_append_left hold, hc.nth k hold]
    congr 2
    omega
  · rw [List.getElem?_concat_length, ← hs.idAt_zero]
    congr 1
    rw [← UInt16.toNat_inj, idAt_toNat, idAt_toNat]
    simp only [Wire.idSpace] at hroom ⊢
    omega

end InFlight

end Hashboard
