import Mathlib.Data.List.Nodup
import Hashboard.InFlight

/-!
# The table of work in flight as a list

A sound table is a list of ids and items in the order of their insertion. Each operation is described by
what it does to that list; nothing else needs to look into the two maps.
-/

namespace Hashboard

/-! ## Maps from numbers, in ascending order -/

section Ascending

variable {β : Type}

private theorem ascending_toList (m : Std.TreeMap Nat β) :
    m.toList.Pairwise (fun p q => p.1 < q.1) := by
  refine m.ordered_keys_toList.imp ?_
  intro p q h
  exact Nat.compare_eq_lt.mp h

private theorem eq_of_ascending {ps qs : List (Nat × β)} (hp : ps.Pairwise (fun p q => p.1 < q.1))
    (hq : qs.Pairwise (fun p q => p.1 < q.1)) (h : ∀ p, p ∈ ps ↔ p ∈ qs) : ps = qs := by
  have hnd : ∀ {rs : List (Nat × β)}, rs.Pairwise (fun p q => p.1 < q.1) → rs.Nodup := by
    intro rs hr
    refine hr.imp ?_
    rintro p q hlt rfl
    exact Nat.lt_irrefl _ hlt
  have hperm := (List.perm_ext_iff_of_nodup (hnd hp) (hnd hq)).mpr h
  exact hperm.eq_of_pairwise (fun p q _ _ h₁ h₂ => absurd h₁ (Nat.lt_asymm h₂)) hp hq

theorem toList_erase (m : Std.TreeMap Nat β) (n : Nat) :
    (m.erase n).toList = m.toList.filter (fun p => p.1 ≠ n) := by
  refine eq_of_ascending (ascending_toList _) ((ascending_toList m).filter _) ?_
  rintro ⟨k, v⟩
  simp only [Std.TreeMap.mem_toList_iff_getElem?_eq_some, Std.TreeMap.getElem?_erase,
    List.mem_filter, decide_eq_true_eq, Nat.compare_eq_eq]
  by_cases hk : n = k
  · simp [hk]
  · simp [hk, Ne.symm hk]

theorem toList_insert_last (m : Std.TreeMap Nat β) (n : Nat) (v : β)
    (h : ∀ (k : Nat) (w : β), m[k]? = some w → k < n) : (m.insert n v).toList = m.toList ++ [(n, v)] := by
  refine eq_of_ascending (ascending_toList _) ?_ ?_
  · refine List.pairwise_append.mpr ⟨ascending_toList m, List.pairwise_singleton _ _, ?_⟩
    rintro ⟨k, w⟩ hk q hq
    obtain rfl := List.mem_singleton.mp hq
    exact h k w (Std.TreeMap.mem_toList_iff_getElem?_eq_some.mp hk)
  · rintro ⟨k, w⟩
    have hfree : m[n]? = none := by
      cases hn : m[n]? with
      | none => rfl
      | some w => exact absurd (h n w hn) (Nat.lt_irrefl n)
    simp only [List.mem_append, Std.TreeMap.mem_toList_iff_getElem?_eq_some,
      Std.TreeMap.getElem?_insert, Nat.compare_eq_eq, List.mem_singleton, Prod.mk.injEq]
    by_cases hk : n = k
    · subst hk; simp [hfree, eq_comm]
    · simp [hk, Ne.symm hk]

end Ascending

namespace InFlight

variable {t : InFlight}

/-! ## Sound tables -/

/-- The two maps are inverse to each other, and the next insertion is ahead of all earlier ones. -/
structure Sound (t : InFlight) : Prop where
  linked : ∀ (seq : Nat) (id : UInt16),
    t.order[seq]? = some id ↔ ∃ item, t.entries[id]? = some ⟨seq, item⟩
  seq_lt : ∀ (seq : Nat) (id : UInt16), t.order[seq]? = some id → seq < t.nextSeq
  id_lt : ∀ (id : UInt16) (entry : InFlightEntry), t.entries[id]? = some entry → id.toNat < Wire.idSpace
  nextId_lt : t.nextId.toNat < Wire.idSpace

/-- The items in flight with their ids, in the order of their insertion. -/
def live (t : InFlight) : List (UInt16 × Item) :=
  t.order.toList.filterMap fun p => (t.get? p.2).map (p.2, ·)

/-- The same with the numbers of their insertion. -/
def rows (t : InFlight) : List (Nat × UInt16 × Item) :=
  t.order.toList.filterMap fun p => (t.get? p.2).map (p.1, p.2, ·)

theorem live_eq (t : InFlight) : t.live = t.rows.map Prod.snd := by
  simp only [live, rows, List.map_filterMap, Option.map_map, Function.comp_def]

theorem get?_eq_some {id item} : t.get? id = some item ↔ ∃ seq, t.entries[id]? = some ⟨seq, item⟩ := by
  simp only [get?, Option.map_eq_some_iff]
  constructor
  · rintro ⟨⟨seq, _⟩, h, rfl⟩
    exact ⟨seq, h⟩
  · rintro ⟨seq, h⟩
    exact ⟨_, h, rfl⟩

theorem Sound.get?_isSome (h : t.Sound) {seq : Nat} {id : UInt16} (ho : t.order[seq]? = some id) :
    ∃ item, t.get? id = some item := by
  obtain ⟨item, he⟩ := (h.linked seq id).mp ho
  exact ⟨item, get?_eq_some.mpr ⟨seq, he⟩⟩

theorem Sound.mem_live (h : t.Sound) {id item} : (id, item) ∈ t.live ↔ t.get? id = some item := by
  simp only [live, List.mem_filterMap, Option.map_eq_some_iff]
  constructor
  · rintro ⟨⟨seq, id'⟩, _, item', hg, he⟩
    cases he
    exact hg
  · intro hg
    obtain ⟨seq, he⟩ := get?_eq_some.mp hg
    exact ⟨(seq, id), Std.TreeMap.mem_toList_iff_getElem?_eq_some.mpr ((h.linked seq id).mpr ⟨item, he⟩),
      item, hg, rfl⟩

theorem Sound.live_ids (h : t.Sound) : t.live.map Prod.fst = t.ids := by
  simp only [live, ids, List.map_filterMap, ← List.filterMap_eq_map]
  refine List.filterMap_congr ?_
  rintro ⟨seq, id⟩ hp
  obtain ⟨item, hg⟩ := h.get?_isSome (Std.TreeMap.mem_toList_iff_getElem?_eq_some.mp hp)
  simp [hg]

/-- Entries are in the order of their numbers. -/
theorem rows_ascending (t : InFlight) : t.rows.Pairwise fun row row' => row.1 < row'.1 := by
  refine (ascending_toList t.order).filterMap _ ?_
  rintro p q hlt row hrow row' hrow'
  obtain ⟨_, _, rfl⟩ := Option.map_eq_some_iff.mp hrow
  obtain ⟨_, _, rfl⟩ := Option.map_eq_some_iff.mp hrow'
  exact hlt

theorem rows_inj {row row'} (hrow : row ∈ t.rows) (hrow' : row' ∈ t.rows) (h : row.1 = row'.1) : row = row' := by
  have hnd : (t.rows.map Prod.fst).Nodup := by
    unfold List.Nodup
    rw [List.pairwise_map]
    exact t.rows_ascending.imp Nat.ne_of_lt
  exact List.inj_on_of_nodup_map hnd hrow hrow' h

theorem Sound.lt_nextSeq (h : t.Sound) {row} (hrow : row ∈ t.rows) : row.1 < t.nextSeq := by
  obtain ⟨⟨seq, id⟩, hp, he⟩ := List.mem_filterMap.mp hrow
  obtain ⟨_, _, rfl⟩ := Option.map_eq_some_iff.mp he
  exact h.seq_lt _ _ (Std.TreeMap.mem_toList_iff_getElem?_eq_some.mp hp)

theorem Sound.ids_nodup (h : t.Sound) : t.ids.Nodup := by
  unfold ids List.Nodup
  rw [List.pairwise_map]
  refine (ascending_toList t.order).imp_of_mem ?_
  rintro ⟨seq, id⟩ ⟨seq', id'⟩ hp hq hlt he
  cases he
  obtain ⟨item, h₁⟩ := (h.linked _ _).mp (Std.TreeMap.mem_toList_iff_getElem?_eq_some.mp hp)
  obtain ⟨item', h₂⟩ := (h.linked _ _).mp (Std.TreeMap.mem_toList_iff_getElem?_eq_some.mp hq)
  have hs : seq = seq' := by simp_all
  exact Nat.ne_of_lt hlt hs

theorem Sound.id_lt_of_mem (h : t.Sound) {p} (hp : p ∈ t.live) : p.1.toNat < Wire.idSpace := by
  obtain ⟨seq, he⟩ := get?_eq_some.mp (h.mem_live.mp hp)
  exact h.id_lt _ _ he

theorem Sound.live_nodup (h : t.Sound) : (t.live.map Prod.fst).Nodup := h.live_ids ▸ h.ids_nodup

theorem Sound.size_eq (h : t.Sound) : t.size = t.live.length := by
  have hperm : (t.entries.toList.map Prod.fst).Perm (t.live.map Prod.fst) := by
    refine (List.perm_ext_iff_of_nodup ?_ h.live_nodup).mpr ?_
    · rw [Std.TreeMap.map_fst_toList_eq_keys]
      exact Std.TreeMap.nodup_keys
    · intro id
      rw [Std.TreeMap.map_fst_toList_eq_keys, Std.TreeMap.mem_keys, List.mem_map]
      constructor
      · intro hm
        obtain ⟨⟨seq, item⟩, he⟩ := Option.isSome_iff_exists.mp (Std.TreeMap.isSome_getElem?_iff_mem.mpr hm)
        exact ⟨(id, item), h.mem_live.mpr (get?_eq_some.mpr ⟨seq, he⟩), rfl⟩
      · rintro ⟨⟨id', item⟩, hl, rfl⟩
        obtain ⟨seq, he⟩ := get?_eq_some.mp (h.mem_live.mp hl)
        exact Std.TreeMap.isSome_getElem?_iff_mem.mp (by simp [he])
  have hlen := hperm.length_eq
  rw [List.length_map, List.length_map, Std.TreeMap.length_toList] at hlen
  exact hlen

/-! ## What the operations do to the list -/

theorem sound_empty : empty.Sound where
  linked := by simp [empty]
  seq_lt := by simp [empty]
  id_lt := by simp [empty]
  nextId_lt := by decide

@[simp] theorem live_empty : empty.live = [] := by simp [live, empty]

theorem Sound.clear (h : t.Sound) : t.clear.Sound where
  linked := by simp [InFlight.clear]
  seq_lt := by simp [InFlight.clear]
  id_lt := by simp [InFlight.clear]
  nextId_lt := h.nextId_lt

@[simp] theorem rows_clear : t.clear.rows = [] := by simp [rows, InFlight.clear]

@[simp] theorem live_clear : t.clear.live = [] := by simp [live, InFlight.clear]

@[simp] theorem ids_empty : empty.ids = [] := List.length_eq_zero_iff.mp (by simp [ids, empty])

@[simp] theorem ids_clear : t.clear.ids = [] :=
  List.length_eq_zero_iff.mp (by simp [ids, InFlight.clear])

@[simp] theorem get?_clear {id} : t.clear.get? id = none := by simp [get?, InFlight.clear]

@[simp] theorem nextId_clear : t.clear.nextId = t.nextId := rfl

@[simp] theorem nextSeq_clear : t.clear.nextSeq = t.nextSeq := rfl

@[simp] theorem nextId_remove {id} : (t.remove id).2.nextId = t.nextId := by
  unfold remove; split <;> rfl

@[simp] theorem nextSeq_remove {id} : (t.remove id).2.nextSeq = t.nextSeq := by
  unfold remove; split <;> rfl

theorem entries_remove {id id' : UInt16} :
    (t.remove id).2.entries[id']? = if id = id' then none else t.entries[id']? := by
  unfold remove
  split
  · rename_i hn
    by_cases he : id = id'
    · subst he; simpa using hn
    · simp [he]
  · simp [Std.TreeMap.getElem?_erase]

theorem get?_remove {id id' : UInt16} :
    (t.remove id).2.get? id' = if id = id' then none else t.get? id' := by
  simp only [get?, entries_remove]
  split <;> rfl

theorem remove_of_none {id} (h : t.get? id = none) : (t.remove id).2 = t := by
  have hn : t.entries[id]? = none := by simpa [get?] using h
  simp [remove, hn]

theorem Sound.order_remove (h : t.Sound) (id : UInt16) :
    (t.remove id).2.order.toList = t.order.toList.filter fun p => p.2 ≠ id := by
  unfold remove
  split
  · rename_i hn
    symm
    rw [List.filter_eq_self]
    rintro ⟨seq, id'⟩ hp
    obtain ⟨item, he⟩ := (h.linked _ _).mp (Std.TreeMap.mem_toList_iff_getElem?_eq_some.mp hp)
    rw [decide_eq_true_eq]
    rintro rfl
    simp [hn] at he
  · rename_i entry hs
    rw [toList_erase]
    refine List.filter_congr ?_
    rintro ⟨seq, id'⟩ hp
    have ho := Std.TreeMap.mem_toList_iff_getElem?_eq_some.mp hp
    obtain ⟨item, he⟩ := (h.linked _ _).mp ho
    have hid : t.order[entry.seq]? = some id := (h.linked _ _).mpr ⟨entry.item, hs⟩
    rw [decide_eq_decide, not_iff_not]
    constructor
    · rintro rfl; simpa [ho] using hid
    · rintro rfl; simp [hs] at he; simp [he]

theorem Sound.remove (h : t.Sound) (id : UInt16) : (t.remove id).2.Sound where
  linked := by
    intro seq id'
    rw [← Std.TreeMap.mem_toList_iff_getElem?_eq_some, h.order_remove, List.mem_filter,
      Std.TreeMap.mem_toList_iff_getElem?_eq_some, h.linked]
    by_cases he : id = id'
    · simp [entries_remove, he]
    · simp [entries_remove, he, Ne.symm he]
  seq_lt := by
    intro seq id' ho
    rw [← Std.TreeMap.mem_toList_iff_getElem?_eq_some, h.order_remove, List.mem_filter,
      Std.TreeMap.mem_toList_iff_getElem?_eq_some] at ho
    simpa using h.seq_lt seq id' ho.1
  id_lt := by
    intro id' entry he
    rw [entries_remove] at he
    split at he
    · cases he
    · exact h.id_lt _ _ he
  nextId_lt := by simpa using h.nextId_lt

theorem Sound.rows_remove (h : t.Sound) (id : UInt16) :
    (t.remove id).2.rows = t.rows.filter fun row => row.2.1 ≠ id := by
  unfold rows
  rw [h.order_remove, List.filter_filterMap, List.filterMap_filter]
  refine List.filterMap_congr ?_
  rintro ⟨seq, id'⟩ _
  by_cases he : id' = id
  · subst he
    cases t.get? id' <;> simp [Option.filter]
  · rw [get?_remove]
    cases t.get? id' <;> simp [Option.filter, he, Ne.symm he]

theorem Sound.live_remove (h : t.Sound) (id : UInt16) :
    (t.remove id).2.live = t.live.filter fun p => p.1 ≠ id := by
  rw [live_eq, live_eq, h.rows_remove, List.filter_map]
  rfl

theorem order_insertNext {item} :
    (t.insertNext item).2.2.order = (t.remove t.nextId).2.order.insert t.nextSeq t.nextId := by
  simp only [insertNext, InFlight.remove]
  cases t.entries[t.nextId]? <;> rfl

theorem entries_insertNext {item} {id : UInt16} :
    (t.insertNext item).2.2.entries[id]? =
      if t.nextId = id then some ⟨t.nextSeq, item⟩ else t.entries[id]? := by
  simp [insertNext, Std.TreeMap.getElem?_insert]

theorem get?_insertNext {item} {id : UInt16} :
    (t.insertNext item).2.2.get? id = if t.nextId = id then some item else t.get? id := by
  simp only [get?, entries_insertNext]
  split <;> rfl

@[simp] theorem nextSeq_insertNext {item} : (t.insertNext item).2.2.nextSeq = t.nextSeq + 1 := rfl

theorem idAt_toNat {k : Nat} : (t.idAt k).toNat = (t.nextId.toNat + k) % Wire.idSpace := by
  have hmask : Wire.idMask.toNat = 2 ^ 15 - 1 := by decide
  rw [idAt, UInt16.toNat_and, hmask, Nat.and_two_pow_sub_one_eq_mod, UInt16.toNat_ofNat']
  exact Nat.mod_mod_of_dvd _ (by decide)

theorem idAt_masked (t : InFlight) (k : Nat) : t.idAt k &&& Wire.idMask = t.idAt k := by
  simp [idAt, UInt16.and_assoc]

@[simp] theorem nextId_insertNext {item} : (t.insertNext item).2.2.nextId = t.idAt 1 := rfl

theorem Sound.order_insertNext (h : t.Sound) (item : Item) :
    (t.insertNext item).2.2.order.toList =
      (t.order.toList.filter fun p => p.2 ≠ t.nextId) ++ [(t.nextSeq, t.nextId)] := by
  rw [InFlight.order_insertNext, toList_insert_last, h.order_remove]
  intro seq id ho
  simpa using (h.remove t.nextId).seq_lt seq id ho

theorem Sound.insertNext (h : t.Sound) (item : Item) : (t.insertNext item).2.2.Sound where
  linked := by
    intro seq id
    rw [← Std.TreeMap.mem_toList_iff_getElem?_eq_some, h.order_insertNext, List.mem_append,
      List.mem_filter, Std.TreeMap.mem_toList_iff_getElem?_eq_some, h.linked, List.mem_singleton,
      entries_insertNext]
    by_cases he : t.nextId = id
    · simp [he, eq_comm]
    · simp [he, Ne.symm he]
  seq_lt := by
    intro seq id ho
    rw [← Std.TreeMap.mem_toList_iff_getElem?_eq_some, h.order_insertNext, List.mem_append,
      List.mem_filter, Std.TreeMap.mem_toList_iff_getElem?_eq_some, List.mem_singleton] at ho
    rw [nextSeq_insertNext]
    rcases ho with ⟨ho, _⟩ | ho
    · exact Nat.lt_succ_of_lt (h.seq_lt seq id ho)
    · cases ho; exact Nat.lt_succ_self _
  id_lt := by
    intro id entry he
    rw [entries_insertNext] at he
    split at he
    · rename_i hid
      exact hid ▸ h.nextId_lt
    · exact h.id_lt _ _ he
  nextId_lt := by
    rw [nextId_insertNext, idAt_toNat]
    exact Nat.mod_lt _ (by decide)

theorem Sound.rows_insertNext (h : t.Sound) (item : Item) :
    (t.insertNext item).2.2.rows =
      (t.rows.filter fun row => row.2.1 ≠ t.nextId) ++ [(t.nextSeq, t.nextId, item)] := by
  unfold rows
  rw [h.order_insertNext, List.filterMap_append, List.filter_filterMap, List.filterMap_filter]
  congr 1
  · refine List.filterMap_congr ?_
    rintro ⟨seq, id⟩ _
    by_cases he : id = t.nextId
    · subst he
      cases t.get? t.nextId <;> simp [Option.filter]
    · rw [get?_insertNext]
      cases t.get? id <;> simp [Option.filter, he, Ne.symm he]
  · simp [get?_insertNext]

theorem Sound.live_insertNext (h : t.Sound) (item : Item) :
    (t.insertNext item).2.2.live = (t.live.filter fun p => p.1 ≠ t.nextId) ++ [(t.nextId, item)] := by
  rw [live_eq, live_eq, h.rows_insertNext, List.map_append, List.filter_map]
  rfl

/-! ## Sizes -/

private theorem length_filter_ne (ps : List (UInt16 × Item)) (id : UInt16) :
    (ps.filter fun p => p.1 ≠ id).length + (ps.map Prod.fst).count id = ps.length := by
  induction ps with
  | nil => rfl
  | cons p ps ih =>
      by_cases hp : p.1 = id
      · simp only [ne_eq, hp, not_true_eq_false, decide_false, List.filter_cons_of_neg,
          Bool.false_eq_true, not_false_eq_true, List.map_cons, List.count_cons_self, List.length_cons] at ih ⊢
        omega
      · simp only [ne_eq, hp, not_false_eq_true, decide_true, List.filter_cons_of_pos, List.length_cons,
          List.map_cons, List.count_cons_of_ne] at ih ⊢
        omega

private theorem Sound.count_eq (h : t.Sound) (id : UInt16) :
    (t.live.map Prod.fst).count id = (t.get? id).isSome.toNat := by
  rw [h.live_nodup.count]
  cases hg : t.get? id with
  | none =>
      rw [if_neg]
      · rfl
      · rintro hm
        obtain ⟨⟨_, item⟩, hl, rfl⟩ := List.mem_map.mp hm
        simp [h.mem_live.mp hl] at hg
  | some item =>
      rw [if_pos]
      · rfl
      · exact List.mem_map.mpr ⟨(id, item), h.mem_live.mpr hg, rfl⟩

theorem Sound.size_remove (h : t.Sound) (id : UInt16) :
    (t.remove id).2.size + (t.get? id).isSome.toNat = t.size := by
  rw [(h.remove id).size_eq, h.live_remove, ← h.count_eq, length_filter_ne, h.size_eq]

theorem Sound.size_insertNext (h : t.Sound) (item : Item) :
    (t.insertNext item).2.2.size + (t.get? t.nextId).isSome.toNat = t.size + 1 := by
  have hsplit := length_filter_ne t.live t.nextId
  rw [(h.insertNext item).size_eq, h.live_insertNext, ← h.count_eq, List.length_append, h.size_eq,
    List.length_singleton]
  omega

@[simp] theorem size_clear : t.clear.size = 0 := by simp [size, InFlight.clear]

/-- There are no more items in flight than ids. -/
theorem Sound.size_le (h : t.Sound) : t.size ≤ Wire.idSpace := by
  have hnd : (t.live.map fun p => p.1.toNat).Nodup := by
    have hids := h.live_nodup
    unfold List.Nodup at hids ⊢
    rw [List.pairwise_map] at hids ⊢
    exact hids.imp fun hne he => hne (UInt16.toNat_inj.mp he)
  have hsub : (t.live.map fun p => p.1.toNat) ⊆ List.range Wire.idSpace := by
    intro n hn
    obtain ⟨p, hp, rfl⟩ := List.mem_map.mp hn
    exact List.mem_range.mpr (h.id_lt_of_mem hp)
  have hlen := hnd.length_le_of_subset hsub
  rw [List.length_map, List.length_range] at hlen
  rw [h.size_eq]
  exact hlen

/-! ## The newest item -/

private theorem ascending_last {β : Type} {m : Std.TreeMap Nat β} {n : Nat} (h : m.maxKey? = some n) :
    ∃ v older, m[n]? = some v ∧ m.toList = older ++ [(n, v)] := by
  obtain ⟨hmem, hmax⟩ := Std.TreeMap.maxKey?_eq_some_iff_mem_and_forall.mp h
  obtain ⟨v, hv⟩ := Option.isSome_iff_exists.mp (Std.TreeMap.isSome_getElem?_iff_mem.mpr hmem)
  have hin := Std.TreeMap.mem_toList_iff_getElem?_eq_some.mpr hv
  rcases List.eq_nil_or_concat m.toList with hnil | ⟨older, ⟨k, w⟩, hcat⟩
  · simp [hnil] at hin
  · rw [List.concat_eq_append] at hcat
    have hk : m[k]? = some w := Std.TreeMap.mem_toList_iff_getElem?_eq_some.mp (by simp [hcat])
    have hkn : k ≤ n :=
      Nat.isLE_compare.mp (hmax k (Std.TreeMap.isSome_getElem?_iff_mem.mp (by simp [hk])))
    have hasc := ascending_toList m
    rw [hcat, List.pairwise_append] at hasc
    rw [hcat, List.mem_append, List.mem_singleton] at hin
    rcases hin with hold | hlast
    · -- an older key would be below the last one, which is not above the greatest
      exact absurd (hasc.2.2 _ hold _ (List.mem_singleton.mpr rfl)) (Nat.not_lt.mpr hkn)
    · exact ⟨v, older, hv, by rw [hcat, hlast]⟩

theorem Sound.newest?_eq (h : t.Sound) : t.newest? = t.live.getLast?.map Prod.snd := by
  unfold newest?
  cases hk : t.order.maxKey? with
  | none =>
      have hnil : t.order.toList = [] := by
        rw [← List.isEmpty_iff, Std.TreeMap.isEmpty_toList, ← Std.TreeMap.maxKey?_eq_none_iff, hk]
      simp [live, hnil]
  | some seq =>
      obtain ⟨id, older, hid, hcat⟩ := ascending_last hk
      obtain ⟨item, hg⟩ := h.get?_isSome hid
      simp [live, hcat, hid, hg]

theorem newest?_empty : empty.newest? = none := by
  rw [sound_empty.newest?_eq, live_empty]
  rfl

end InFlight

end Hashboard
