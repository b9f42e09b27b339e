import Mathlib.Data.List.Induction
import Hashboard.Proofs.Consecutive
import Hashboard.Proofs.InsertionLog

/-!
# Which id an insertion gets, and whom it pushes out

Insertions get the ids one after the other, whatever happens to the table between them, so the id of any later
insertion can be told beforehand. An insertion pushes an item out if and only if the entry that was made one
round of ids earlier is still on the table (`id_issue`).
-/

namespace Hashboard.InFlight

variable {t : InFlight} {ops : List Op} {n : Nat} {item : Item}

def Answer.issued? : Answer → Option UInt16
  | inserted id _ => some id
  | _ => none

def Answer.displaced? : Answer → Option Item
  | inserted _ displaced => displaced
  | _ => none

/-- The ids that the insertions got. -/
def issued (answers : List Answer) : List UInt16 :=
  answers.filterMap Answer.issued?

/-! ## Ids told beforehand -/

theorem Sound.apply (h : t.Sound) (op : Op) : (t.apply op).2.Sound := by
  cases op with
  | insert item => exact h.insertNext item
  | remove id => exact h.remove id
  | get id => exact h
  | clear => exact h.clear

theorem idAt_remove (t : InFlight) (id : UInt16) : (t.remove id).2.idAt = t.idAt := by
  funext k
  rw [idAt, idAt, nextId_remove]

/-- Later insertions get the ids that the table tells now. -/
theorem Sound.issued_run (h : t.Sound) (ops : List Op) :
    issued (t.run ops).1 = (List.range (insertions ops)).map t.idAt := by
  induction ops generalizing t with
  | nil => rfl
  | cons op ops ih =>
      have hrest := ih (h.apply op)
      rw [insertions_cons]
      cases op with
      | insert item =>
          have hnext : (t.insertNext item).2.2.idAt = t.idAt ∘ Nat.succ := funext fun _ => idAt_insertNext
          rw [Op.isInsert, Bool.toNat_true, List.range_succ_eq_map, List.map_cons, List.map_map, h.idAt_zero,
            ← hnext]
          exact congrArg (t.nextId :: ·) hrest
      | remove id =>
          rw [← idAt_remove t id]
          exact hrest
      | get id => exact hrest
      | clear => exact hrest

/-- The sum may wrap around the machine's words: the id stays the same. -/
theorem idAt_word (t : InFlight) (k : UInt64) :
    (t.nextId.toUInt64 + k).toUInt16 &&& Wire.idMask = t.idAt k.toNat := by
  have hsum : (t.nextId.toUInt64 + k).toUInt16 = UInt16.ofNat (t.nextId.toNat + k.toNat) := by
    rw [← UInt16.toNat_inj, UInt64.toNat_toUInt16, UInt64.toNat_add, UInt16.toNat_toUInt64,
      UInt16.toNat_ofNat']
    exact Nat.mod_mod_of_dvd _ (by decide)
  rw [hsum, idAt]

/-! ## Entries that are still on the table -/

/-- The entry that insertion number `n` made for this item is on the table behind these operations: since then
its id was neither removed nor given out again, and the table was not cleared. -/
def Survives (ops : List Op) (n : Nat) (item : Item) : Prop :=
  ∃ before after, ops = before ++ .insert item :: after ∧ insertions before = n ∧
    .clear ∉ after ∧ .remove (idOf n) ∉ after ∧ insertions after < Wire.idSpace

theorem insertions_append (ops more : List Op) :
    insertions (ops ++ more) = insertions ops + insertions more :=
  List.countP_append

theorem insertions_concat (ops : List Op) (op : Op) :
    insertions (ops ++ [op]) = insertions ops + op.isInsert.toNat := by
  rw [insertions_append, insertions_cons]
  exact congrArg (insertions ops + ·) (Nat.zero_add _)

theorem insertions_around (before after : List Op) (item : Item) :
    insertions (before ++ .insert item :: after) = insertions before + insertions after + 1 := by
  rw [insertions_append, insertions_cons]
  rfl

theorem Survives.number_lt (h : Survives ops n item) :
    n < insertions ops ∧ insertions ops ≤ n + Wire.idSpace := by
  obtain ⟨before, after, rfl, hn, _, _, hlt⟩ := h
  rw [insertions_around]
  omega

theorem not_survives_nil : ¬ Survives [] n item := by
  rintro ⟨before, after, he, _⟩
  simp at he

/-- What one more operation leaves on the table, and what it adds. -/
theorem survives_concat {op : Op} :
    Survives (ops ++ [op]) n item ↔
      (op = .insert item ∧ insertions ops = n) ∨
        (Survives ops n item ∧ op ≠ .clear ∧ op ≠ .remove (idOf n) ∧
          (op.isInsert → insertions ops < n + Wire.idSpace)) := by
  constructor
  · rintro ⟨before, after, he, hn, hclear, hremove, hlt⟩
    rcases List.eq_nil_or_concat after with rfl | ⟨older, last, rfl⟩
    · -- the operation is the insertion itself
      obtain ⟨rfl, hlast⟩ := List.append_inj' he rfl
      exact Or.inl ⟨(List.cons.inj hlast).1, hn⟩
    · -- the operation comes after the insertion, and must spare its entry
      rw [List.concat_eq_append, ← List.cons_append, ← List.append_assoc] at he
      obtain ⟨rfl, hlast⟩ := List.append_inj' he rfl
      obtain rfl := (List.cons.inj hlast).1
      rw [List.concat_eq_append, List.mem_append, List.mem_singleton, not_or] at hclear hremove
      rw [List.concat_eq_append, insertions_concat] at hlt
      refine Or.inr ⟨⟨before, older, rfl, hn, hclear.1, hremove.1, by omega⟩, Ne.symm hclear.2,
        Ne.symm hremove.2, ?_⟩
      intro hop
      rw [hop, Bool.toNat_true] at hlt
      rw [insertions_around]
      omega
  · rintro (⟨rfl, hn⟩ | ⟨⟨before, after, rfl, hn, hclear, hremove, hlt⟩, hop, hid, hroom⟩)
    · exact ⟨ops, [], rfl, hn, by simp, by simp, by decide⟩
    · refine ⟨before, after ++ [op], by simp, hn, ?_, ?_, ?_⟩
      · simp [hclear, Ne.symm hop]
      · simp [hremove, Ne.symm hid]
      · rw [insertions_around] at hroom
        rw [insertions_concat]
        cases hins : op.isInsert with
        | true =>
            have := hroom hins
            rw [Bool.toNat_true]
            omega
        | false => exact hlt

theorem idOf_eq_iff {m : Nat} : idOf m = idOf n ↔ m % Wire.idSpace = n % Wire.idSpace := by
  rw [← UInt16.toNat_inj, idOf_toNat, idOf_toNat]

theorem run_concat (t : InFlight) (ops : List Op) (op : Op) :
    (t.run (ops ++ [op])).2 = ((t.run ops).2.apply op).2 := by
  rw [run_append]
  rfl

/-- Within one round no id is given out twice. -/
theorem idOf_ne {m : Nat} (h : n < m) (hround : m < n + Wire.idSpace) : idOf m ≠ idOf n := by
  rw [ne_eq, idOf_eq_iff]
  simp only [Wire.idSpace] at hround ⊢
  omega

theorem entry_insert (ih : ∀ (id : UInt16) (n : Nat) (item : Item),
      (empty.run ops).2.entries[id]? = some ⟨n, item⟩ ↔ id = idOf n ∧ Survives ops n item)
    (new : Item) (id : UInt16) (n : Nat) (item : Item) :
    (if idOf (insertions ops) = id then some ⟨insertions ops, new⟩
      else (empty.run ops).2.entries[id]?) = some ⟨n, item⟩ ↔
      id = idOf n ∧ Survives (ops ++ [.insert new]) n item := by
  rw [survives_concat]
  by_cases hid : idOf (insertions ops) = id
  · rw [if_pos hid]
    constructor
    · rintro ⟨⟩
      exact ⟨hid.symm, Or.inl ⟨rfl, rfl⟩⟩
    · rintro ⟨hn, ⟨hnew, rfl⟩ | ⟨hold, _, _, hroom⟩⟩
      · cases hnew
        rfl
      · -- an entry that keeps the id would be a whole round old
        exact absurd (hid.trans hn) (idOf_ne hold.number_lt.1 (hroom rfl))
  · rw [if_neg hid, ih]
    constructor
    · rintro ⟨rfl, hold⟩
      refine ⟨rfl, Or.inr ⟨hold, by simp, by simp, fun _ => Nat.lt_of_le_of_ne hold.number_lt.2 ?_⟩⟩
      intro hround
      exact hid (idOf_eq_iff.mpr (by rw [hround, Nat.add_mod_right]))
    · rintro ⟨rfl, ⟨_, rfl⟩ | ⟨hold, _⟩⟩
      · exact absurd rfl hid
      · exact ⟨rfl, hold⟩

/-- The table holds the entries that have survived, each under its id. -/
theorem entry_iff (ops : List Op) (id : UInt16) (n : Nat) (item : Item) :
    (empty.run ops).2.entries[id]? = some ⟨n, item⟩ ↔ id = idOf n ∧ Survives ops n item := by
  induction ops using List.reverseRecOn generalizing id n item with
  | nil =>
      constructor
      · intro h
        simp [run, Op.runAll, empty] at h
      · rintro ⟨_, h⟩
        exact absurd h not_survives_nil
  | append_singleton ops op ih =>
      obtain ⟨hseq, hnext⟩ := number_run ops
      rw [run_concat]
      cases op with
      | insert new =>
          show ((empty.run ops).2.insertNext new).2.2.entries[id]? = _ ↔ _
          rw [entries_insertNext, hseq, hnext]
          exact entry_insert ih new id n item
      | remove other =>
          show ((empty.run ops).2.remove other).2.entries[id]? = _ ↔ _
          rw [entries_remove, survives_concat]
          by_cases hid : other = id
          · subst hid
            simp +contextual
          · rw [if_neg hid, ih]
            constructor
            · rintro ⟨rfl, h⟩
              exact ⟨rfl, Or.inr ⟨h, by simp, by simpa using hid, by simp [Op.isInsert]⟩⟩
            · rintro ⟨rfl, ⟨hop, _⟩ | ⟨h, _⟩⟩
              · cases hop
              · exact ⟨rfl, h⟩
      | get other => simp [survives_concat, ih, apply, Op.isInsert]
      | clear => simp [survives_concat, apply, InFlight.clear]

/-! ## Reused ids -/

/-- An insertion pushes out the entry that was made one round of ids earlier, if that has survived. -/
theorem displaced_iff (ops : List Op) (new old : Item) :
    ((empty.run ops).2.insertNext new).2.1 = some old ↔
      Wire.idSpace ≤ insertions ops ∧ Survives ops (insertions ops - Wire.idSpace) old := by
  have hget : ((empty.run ops).2.insertNext new).2.1 = (empty.run ops).2.get? (idOf (insertions ops)) := by
    rw [← (number_run ops).2]
    rfl
  rw [hget, get?_eq_some]
  constructor
  · rintro ⟨n, he⟩
    obtain ⟨hid, hold⟩ := (entry_iff ops _ n old).mp he
    have hround : insertions ops = n + Wire.idSpace := by
      rcases Nat.lt_or_eq_of_le hold.number_lt.2 with hlt | heq
      · exact absurd hid (idOf_ne hold.number_lt.1 hlt)
      · exact heq
    rw [hround, Nat.add_sub_cancel]
    exact ⟨Nat.le_add_left _ _, hold⟩
  · rintro ⟨hround, hold⟩
    exact ⟨_, (entry_iff ops _ _ old).mpr ⟨idOf_eq_iff.mpr (Nat.mod_eq_sub_mod hround), hold⟩⟩

theorem run_length (t : InFlight) (ops : List Op) : (t.run ops).1.length = ops.length := by
  induction ops generalizing t with
  | nil => rfl
  | cons op ops ih => exact congrArg (· + 1) (ih (t.apply op).2)

/-- Every answer is the answer to one of the operations, from the table that those before it have left. -/
theorem run_getElem? (t : InFlight) (before after : List Op) (op : Op) :
    (t.run (before ++ op :: after)).1[before.length]? = some ((t.run before).2.apply op).1 := by
  rw [run_append, List.getElem?_append_right (Nat.le_of_eq (run_length t before)), run_length, Nat.sub_self]
  rfl

theorem mem_run {answer : Answer} (h : answer ∈ (t.run ops).1) :
    ∃ before op after, ops = before ++ op :: after ∧ answer = ((t.run before).2.apply op).1 := by
  obtain ⟨i, hi⟩ := List.mem_iff_getElem?.mp h
  have hlt : i < ops.length := by
    rw [← run_length t ops]
    exact (List.getElem?_eq_some_iff.mp hi).1
  have hsplit : ops = ops.take i ++ ops[i] :: ops.drop (i + 1) := by
    rw [List.getElem_cons_drop, List.take_append_drop]
  have hat := run_getElem? t (ops.take i) (ops.drop (i + 1)) ops[i]
  rw [← hsplit, List.length_take, Nat.min_eq_left (Nat.le_of_lt hlt), hi, Option.some.injEq] at hat
  exact ⟨_, _, _, hsplit, hat⟩

/-- What holds of the ids in every run of operations on an empty table, and in every run behind it. -/
theorem id_issue (ops : List Op) :
    let t := (empty.run ops).2
    (∀ k : UInt64, let id := (t.nextId.toUInt64 + k).toUInt16 &&& Wire.idMask
      t.idAt k.toNat = id ∧ ∀ later, k.toNat < insertions later →
        (issued (t.run later).1)[k.toNat]? = some id) ∧
    (∀ (id : UInt16) (n : Nat) (item : Item),
      t.entries[id]? = some ⟨n, item⟩ ↔ id = idOf n ∧ Survives ops n item) ∧
    (∀ before item after, ops = before ++ .insert item :: after → ∃ displaced,
      (empty.run ops).1[before.length]? = some (.inserted (idOf (insertions before)) displaced) ∧
      ∀ old, displaced = some old ↔
        32768 ≤ insertions before ∧ Survives before (insertions before - 32768) old) ∧
    ((∀ before item after, ops = before ++ .insert item :: after →
        ∀ n old, Survives before n old → insertions before < n + 32768) →
      ∀ answer ∈ (empty.run ops).1, answer.displaced? = none) := by
  intro t
  refine ⟨?_, entry_iff ops, ?_, ?_⟩
  · intro k id
    have hid : t.idAt k.toNat = id := (idAt_word t k).symm
    refine ⟨hid, ?_⟩
    intro later hk
    rw [(represents_empty.run ops).2.sound.issued_run, List.getElem?_map, List.getElem?_range hk, ← hid]
    rfl
  · rintro before item after rfl
    refine ⟨((empty.run before).2.insertNext item).2.1, ?_, fun old => displaced_iff before item old⟩
    rw [run_getElem?, ← (number_run before).2]
    rfl
  · intro hwindow answer hanswer
    obtain ⟨before, op, after, hops, rfl⟩ := mem_run hanswer
    cases op with
    | insert item =>
        show ((empty.run before).2.insertNext item).2.1 = none
        rw [Option.eq_none_iff_forall_ne_some]
        intro old hold
        obtain ⟨hround, hsurvives⟩ := (displaced_iff before item old).mp hold
        have hlt := hwindow before item after hops _ old hsurvives
        simp only [Wire.idSpace] at hround hlt
        omega
    | remove id => rfl
    | get id => rfl
    | clear => rfl

/-- The whole id space is given out to items that stay: the next insertion gets id 0 again and pushes the first
item out. With one removal in between it does not. -/
theorem id_issue_round :
    let item (handle : Nat) : Item :=
      ⟨handle, .replicate Wire.midstateLength 7, .replicate Wire.dataLength 9, 1⟩
    let round : List Op := List.replicate 32768 (.insert (item 0))
    (empty.run (round ++ [.insert (item 1)])).1[32768]? = some (.inserted 0 (some (item 0))) ∧
      (empty.run (round ++ [.remove 0, .insert (item 1)])).1[32769]? = some (.inserted 0 none) ∧
      (issued ((empty.run round).2.run [.insert (item 1), .clear, .insert (item 2)]).1)[1]? = some 1 ∧
      ∀ answer ∈ (empty.run [.insert (item 0), .insert (item 1)]).1, answer.displaced? = none := by
  intro item round
  have hcount : insertions round = 32768 := List.countP_replicate
  have hlength : round.length = 32768 := List.length_replicate
  have hfirst : Survives round 0 (item 0) := by
    refine ⟨[], List.replicate 32767 (.insert (item 0)), List.replicate_succ, rfl, ?_, ?_, ?_⟩
    · intro h
      cases List.eq_of_mem_replicate h
    · intro h
      cases List.eq_of_mem_replicate h
    · rw [insertions, List.countP_replicate]
      decide
  refine ⟨?_, ?_, ?_, ?_⟩
  · obtain ⟨displaced, hat, hdisplaced⟩ :=
      (id_issue (round ++ [.insert (item 1)])).2.2.1 round (item 1) [] rfl
    rw [hcount] at hat hdisplaced
    rw [hlength, (hdisplaced (item 0)).mpr ⟨Nat.le_refl _, hfirst⟩] at hat
    exact hat
  · obtain ⟨displaced, hat, hdisplaced⟩ :=
      (id_issue (round ++ [.remove 0, .insert (item 1)])).2.2.1 (round ++ [.remove 0]) (item 1) []
        (by rw [List.append_assoc]; rfl)
    have hcount' : insertions (round ++ [.remove 0]) = 32768 := by
      rw [insertions_concat, hcount]
      rfl
    rw [hcount'] at hat hdisplaced
    have hnone : displaced = none := by
      rw [Option.eq_none_iff_forall_ne_some]
      intro old hold
      rcases survives_concat.mp ((hdisplaced old).mp hold).2 with ⟨hop, _⟩ | ⟨_, _, hkept, _⟩
      · cases hop
      · exact hkept rfl
    rw [List.length_append, hlength, hnone] at hat
    exact hat
  · obtain ⟨_, hissued⟩ := (id_issue round).1 1
    have hnext : (empty.run round).2.nextId = 0 := by
      rw [(number_run round).2, hcount]
      rfl
    rw [hnext] at hissued
    exact hissued [.insert (item 1), .clear, .insert (item 2)] (by decide)
  · refine (id_issue [.insert (item 0), .insert (item 1)]).2.2.2 ?_
    intro before _ after hops n _ _
    have hfew := congrArg insertions hops
    rw [insertions_append] at hfew
    have htwo : insertions [.insert (item 0), .insert (item 1)] = 2 := rfl
    omega

end Hashboard.InFlight
