import Mathlib.Algebra.Ring.Nat
import Hashboard.Proofs.InFlight

/-!
# The table keeps a log of insertions

The two maps of a table together are one list: the pairs of ids and items in the order of their insertion.
A run of operations on an empty table answers as the same run on an empty list, and what can be asked of the
table can be read off the list (`represents`).
-/

namespace Hashboard

namespace InFlight

/-! ## Runs of operations -/

inductive Op where
  | insert (item : Item)
  | remove (id : UInt16)
  | get (id : UInt16)
  | clear
  deriving DecidableEq, Repr

/-- What an operation tells its caller. -/
inductive Answer where
  | inserted (id : UInt16) (displaced : Option Item)
  | removed (item : Option Item)
  | got (item : Option Item)
  | cleared (count : Nat)
  deriving DecidableEq, Repr

def Op.isInsert : Op → Bool
  | insert _ => true
  | _ => false

/-- The number of insertions among some operations. -/
def insertions (ops : List Op) : Nat :=
  ops.countP Op.isInsert

/-- All answers, and the state behind the last operation. -/
def Op.runAll {σ : Type} (step : σ → Op → Answer × σ) : σ → List Op → List Answer × σ
  | s, [] => ([], s)
  | s, op :: ops =>
    let (answer, s) := step s op
    let (answers, s) := runAll step s ops
    (answer :: answers, s)

/-- The id of insertion number `n`. -/
def idOf (n : Nat) : UInt16 :=
  UInt16.ofNat (n % 2 ^ 15)

def apply (t : InFlight) : Op → Answer × InFlight
  | .insert item =>
    let (id, displaced, t) := t.insertNext item
    (.inserted id displaced, t)
  | .remove id =>
    let (item, t) := t.remove id
    (.removed item, t)
  | .get id => (.got (t.get? id), t)
  | .clear => (.cleared t.size, t.clear)

def run (t : InFlight) (ops : List Op) : List Answer × InFlight :=
  Op.runAll apply t ops

end InFlight

/-- Pairs of ids and items in the order of insertion, and how many insertions there were in all. -/
structure InsertionLog where
  pairs : List (UInt16 × Item)
  count : Nat
  deriving DecidableEq, Repr

namespace InsertionLog

open InFlight

def empty : InsertionLog :=
  ⟨[], 0⟩

def nextId (l : InsertionLog) : UInt16 :=
  idOf l.count

def without (l : InsertionLog) (id : UInt16) : List (UInt16 × Item) :=
  l.pairs.filter fun p => p.1 ≠ id

def apply (l : InsertionLog) : Op → Answer × InsertionLog
  | .insert item =>
    (.inserted l.nextId (l.pairs.lookup l.nextId), ⟨l.without l.nextId ++ [(l.nextId, item)], l.count + 1⟩)
  | .remove id => (.removed (l.pairs.lookup id), { l with pairs := l.without id })
  | .get id => (.got (l.pairs.lookup id), l)
  | .clear => (.cleared l.pairs.length, { l with pairs := [] })

def run (l : InsertionLog) (ops : List Op) : List Answer × InsertionLog :=
  Op.runAll apply l ops

end InsertionLog

namespace InFlight

variable {t : InFlight} {l : InsertionLog}

theorem idOf_toNat (n : Nat) : (idOf n).toNat = n % Wire.idSpace :=
  UInt16.toNat_ofNat_of_lt' (Nat.lt_trans (Nat.mod_lt n (by decide)) (by decide))

theorem insertions_cons (op : Op) (ops : List Op) :
    insertions (op :: ops) = insertions ops + op.isInsert.toNat := by
  rw [insertions, List.countP_cons]
  cases op <;> rfl

/-! ## Looking a pair up -/

private theorem lookup_of_mem {ps : List (UInt16 × Item)} (hnd : (ps.map Prod.fst).Nodup) {id : UInt16}
    {item : Item} (h : (id, item) ∈ ps) : ps.lookup id = some item := by
  induction ps with
  | nil => cases h
  | cons p ps ih =>
      rw [List.map_cons, List.nodup_cons] at hnd
      rcases List.mem_cons.mp h with rfl | hrest
      · exact List.lookup_cons_self
      · have hne : (id == p.1) = false := by
          refine beq_eq_false_iff_ne.mpr ?_
          rintro rfl
          exact hnd.1 (List.mem_map.mpr ⟨_, hrest, rfl⟩)
        rw [List.lookup_cons, hne]
        exact ih hnd.2 hrest

theorem Sound.lookup_live (h : t.Sound) (id : UInt16) : t.live.lookup id = t.get? id := by
  cases hg : t.get? id with
  | some item => exact lookup_of_mem h.live_nodup (h.mem_live.mpr hg)
  | none =>
      rw [List.lookup_eq_none_iff]
      rintro ⟨id', item⟩ hp
      rw [bne_iff_ne]
      rintro rfl
      simp [h.mem_live.mp hp] at hg

/-! ## The table stands for the list -/

/-- The table holds the pairs of the list, and the next insertion is numbered as there. -/
structure Represents (t : InFlight) (l : InsertionLog) : Prop where
  sound : t.Sound
  pairs : t.live = l.pairs
  count : t.nextSeq = l.count
  nextId : t.nextId = l.nextId

theorem represents_empty : empty.Represents .empty :=
  ⟨sound_empty, live_empty, rfl, rfl⟩

theorem Represents.lookup (h : t.Represents l) (id : UInt16) : l.pairs.lookup id = t.get? id := by
  rw [← h.pairs]
  exact h.sound.lookup_live id

theorem Represents.insert (h : t.Represents l) (item : Item) :
    (t.apply (.insert item)).1 = (l.apply (.insert item)).1 ∧
      (t.apply (.insert item)).2.Represents (l.apply (.insert item)).2 := by
  have hdisplaced : (t.insertNext item).2.1 = t.get? t.nextId := rfl
  refine ⟨?_, h.sound.insertNext item, ?_, congrArg (· + 1) h.count, ?_⟩
  · simp only [apply, InsertionLog.apply, hdisplaced, h.lookup, ← h.nextId]
    rfl
  · show (t.insertNext item).2.2.live = _
    rw [h.sound.live_insertNext, h.pairs, h.nextId]
    rfl
  · show t.idAt 1 = idOf (l.count + 1)
    rw [← UInt16.toNat_inj, idAt_toNat, idOf_toNat, h.nextId, InsertionLog.nextId, idOf_toNat,
      Nat.mod_add_mod]

theorem Represents.remove (h : t.Represents l) (id : UInt16) :
    (t.apply (.remove id)).1 = (l.apply (.remove id)).1 ∧
      (t.apply (.remove id)).2.Represents (l.apply (.remove id)).2 := by
  have hremoved : (t.remove id).1 = t.get? id := by
    unfold InFlight.remove get?
    cases t.entries[id]? <;> rfl
  refine ⟨?_, h.sound.remove id, ?_, ?_, ?_⟩
  · simp only [apply, InsertionLog.apply, hremoved, h.lookup]
  · show (t.remove id).2.live = _
    rw [h.sound.live_remove, h.pairs]
    rfl
  · show (t.remove id).2.nextSeq = l.count
    rw [nextSeq_remove, h.count]
  · show (t.remove id).2.nextId = l.nextId
    rw [nextId_remove, h.nextId]

/-- An operation answers the same on both, and the table stands for the list again. -/
theorem Represents.apply (h : t.Represents l) (op : Op) :
    (t.apply op).1 = (l.apply op).1 ∧ (t.apply op).2.Represents (l.apply op).2 := by
  cases op with
  | insert item => exact h.insert item
  | remove id => exact h.remove id
  | get id => exact ⟨congrArg Answer.got (h.lookup id).symm, h⟩
  | clear =>
      have hsize : t.size = l.pairs.length := by rw [h.sound.size_eq, h.pairs]
      exact ⟨congrArg Answer.cleared hsize, h.sound.clear, live_clear, h.count, h.nextId⟩

theorem Represents.run (h : t.Represents l) (ops : List Op) :
    (t.run ops).1 = (l.run ops).1 ∧ (t.run ops).2.Represents (l.run ops).2 := by
  induction ops generalizing t l with
  | nil => exact ⟨rfl, h⟩
  | cons op ops ih =>
      obtain ⟨hanswer, hnext⟩ := h.apply op
      obtain ⟨hanswers, hlast⟩ := ih hnext
      exact ⟨congrArg₂ List.cons hanswer hanswers, hlast⟩

theorem run_append (t : InFlight) (ops more : List Op) :
    t.run (ops ++ more) =
      ((t.run ops).1 ++ ((t.run ops).2.run more).1, ((t.run ops).2.run more).2) := by
  induction ops generalizing t with
  | nil => rfl
  | cons op ops ih =>
      simp only [run] at ih
      simp only [List.cons_append, run, Op.runAll, ih]

theorem nextSeq_apply (t : InFlight) (op : Op) : (t.apply op).2.nextSeq = t.nextSeq + op.isInsert.toNat := by
  cases op with
  | insert item => rfl
  | remove id => exact nextSeq_remove
  | get id => rfl
  | clear => rfl

theorem nextSeq_run (t : InFlight) (ops : List Op) : (t.run ops).2.nextSeq = t.nextSeq + insertions ops := by
  induction ops generalizing t with
  | nil => rfl
  | cons op ops ih =>
      show ((t.apply op).2.run ops).2.nextSeq = _
      rw [ih, nextSeq_apply, insertions_cons]
      omega

theorem number_run (ops : List Op) :
    (empty.run ops).2.nextSeq = insertions ops ∧ (empty.run ops).2.nextId = idOf (insertions ops) := by
  have hseq : (empty.run ops).2.nextSeq = insertions ops :=
    (nextSeq_run empty ops).trans (Nat.zero_add _)
  have h := (represents_empty.run ops).2
  refine ⟨hseq, ?_⟩
  rw [h.nextId, InsertionLog.nextId, ← h.count, hseq]

/-- What holds of every table that any operations have made of an empty one. -/
theorem represents (ops : List Op) :
    let t := (empty.run ops).2
    let log := (InsertionLog.empty.run ops).2
    (empty.run ops).1 = (InsertionLog.empty.run ops).1 ∧
    (∀ id, t.get? id = log.pairs.lookup id) ∧
    t.size = log.pairs.length ∧
    t.ids = log.pairs.map Prod.fst ∧
    t.newest? = log.pairs.getLast?.map Prod.snd ∧
    t.entries.size = t.order.size ∧
    (∀ (seq : Nat) (id : UInt16), t.order[seq]? = some id ↔
      ∃ entry, t.entries[id]? = some entry ∧ entry.seq = seq) ∧
    (∀ (seq : Nat) (id : UInt16), t.order[seq]? = some id → seq < t.nextSeq) ∧
    t.nextSeq = insertions ops ∧
    (∀ (id : UInt16) (entry : InFlightEntry), t.entries[id]? = some entry → id.toNat < 2 ^ 15) ∧
    t.nextId.toNat < 2 ^ 15 ∧
    t.size ≤ 32768 ∧
    t.ids.Nodup := by
  intro t log
  obtain ⟨hanswers, h⟩ := represents_empty.run ops
  have hsize : t.size = log.pairs.length := by rw [h.sound.size_eq, h.pairs]
  have hids : t.ids = log.pairs.map Prod.fst := by rw [← h.sound.live_ids, h.pairs]
  refine ⟨hanswers, fun id => (h.lookup id).symm, hsize, hids, ?_, ?_, ?_, h.sound.seq_lt, ?_,
    h.sound.id_lt, h.sound.nextId_lt, h.sound.size_le, h.sound.ids_nodup⟩
  · rw [h.sound.newest?_eq, h.pairs]
  · have horder : t.ids.length = t.order.size := by
      rw [ids, List.length_map, Std.TreeMap.length_toList]
    rw [← horder, hids, List.length_map, ← hsize]
    rfl
  · intro seq id
    rw [h.sound.linked]
    constructor
    · rintro ⟨item, he⟩
      exact ⟨_, he, rfl⟩
    · rintro ⟨entry, he, rfl⟩
      exact ⟨entry.item, he⟩
  · exact (number_run ops).1

/-- The newest of three items has left the table: the one inserted before it is the newest now. -/
theorem represents_newest :
    let item (handle : Nat) : Item :=
      ⟨handle, .replicate Wire.midstateLength 7, .replicate Wire.dataLength 9, 1⟩
    let ops : List Op := [.insert (item 0), .insert (item 1), .insert (item 2), .remove 2]
    let t := (empty.run ops).2
    t.newest? = some (item 1) ∧ t.ids = [0, 1] ∧ t.order[1]? = some 1 ∧ 1 < t.nextSeq := by
  intro item ops t
  obtain ⟨_, _, _, hids, hnewest, _, _, hbelow, _⟩ := represents ops
  have horder : t.order[1]? = some 1 := by decide
  exact ⟨hnewest, hids, horder, hbelow 1 1 horder⟩

end InFlight

end Hashboard
