import Mathlib.Data.List.Basic
import Mathlib.Logic.Function.Basic
import Hashboard.SharedController
import Hashboard.StandIn

/-!
# What a shared controller does to its buses

Nothing, as long as none of them crashes: each device answers as its bus would alone (`isolated`). From the first
crash on nobody is served, whoever was or will be attached to the controller.
-/

namespace Hashboard

/-! ## Turns -/

/-- A transaction of a device, which went through the controller with this lock. -/
structure BusTurn where
  device : Nat
  lock : Nat
  tx : List UInt8
  rx : List UInt8
  answer : BusAnswer

namespace BusTurn

def request (t : BusTurn) : List UInt8 × List UInt8 :=
  (t.tx, t.rx)

def crashed (t : BusTurn) : Bool :=
  t.answer.crashed

/-- The controller refuses to serve the device, and the receive buffer stays as it is. -/
def Refused (t : BusTurn) : Prop :=
  t.answer = ⟨some (.error .poisoned), t.rx⟩

/-- The turns up to the first crash, which is among them. -/
def upToCrash : List BusTurn → List BusTurn
  | [] => []
  | t :: rest => if t.crashed then [t] else t :: upToCrash rest

/-- The turns behind the first crash. -/
def behindCrash : List BusTurn → List BusTurn
  | [] => []
  | t :: rest => if t.crashed then rest else behindCrash rest

variable {turns : List BusTurn} {t : BusTurn} {lock device : Nat}

theorem upToCrash_append_behindCrash (turns : List BusTurn) : upToCrash turns ++ behindCrash turns = turns := by
  induction turns with
  | nil => rfl
  | cons t rest ih =>
      unfold upToCrash behindCrash
      split
      · rfl
      · exact congrArg (t :: ·) ih

theorem upToCrash_concat (turns : List BusTurn) (t : BusTurn) :
    upToCrash (turns ++ [t]) = if turns.any crashed then upToCrash turns else upToCrash turns ++ [t] := by
  induction turns with
  | nil => cases h : t.crashed <;> simp [upToCrash, h]
  | cons u rest ih =>
      cases hu : u.crashed with
      | true => simp [upToCrash, hu]
      | false => cases hrest : rest.any crashed <;> simp [upToCrash, hu, ih, hrest]

theorem behindCrash_concat (turns : List BusTurn) (t : BusTurn) :
    behindCrash (turns ++ [t]) = if turns.any crashed then behindCrash turns ++ [t] else [] := by
  induction turns with
  | nil => cases h : t.crashed <;> simp [behindCrash, h]
  | cons u rest ih => cases hu : u.crashed <;> simp [behindCrash, hu, ih]

/-- The turns on a lock that the controller served. -/
def served (lock : Nat) (past : List BusTurn) : List BusTurn :=
  upToCrash (past.filter (·.lock = lock))

/-- The turns on a lock that come too late. -/
def late (lock : Nat) (past : List BusTurn) : List BusTurn :=
  behindCrash (past.filter (·.lock = lock))

def of (device : Nat) (turns : List BusTurn) : List BusTurn :=
  turns.filter (·.device = device)

/-- A crash among the turns on a lock. -/
def Poisons (lock : Nat) (past : List BusTurn) : Prop :=
  ∃ t ∈ past, t.lock = lock ∧ t.crashed = true

theorem any_crashed_iff : (turns.filter (·.lock = lock)).any crashed = true ↔ Poisons lock turns := by
  simp [Poisons]

theorem poisons_concat : Poisons lock (turns ++ [t]) ↔ Poisons lock turns ∨ t.lock = lock ∧ t.crashed = true := by
  simp [Poisons, or_and_right, exists_or]

theorem served_append_late (lock : Nat) (past : List BusTurn) :
    served lock past ++ late lock past = past.filter (·.lock = lock) :=
  upToCrash_append_behindCrash _

theorem served_concat_other (h : t.lock ≠ lock) : served lock (turns ++ [t]) = served lock turns := by
  simp [served, h]

theorem late_concat_other (h : t.lock ≠ lock) : late lock (turns ++ [t]) = late lock turns := by
  simp [late, h]

theorem served_concat_of_poisons (h : Poisons t.lock turns) : served lock (turns ++ [t]) = served lock turns := by
  by_cases hlock : t.lock = lock
  · subst hlock
    simp [served, upToCrash_concat, any_crashed_iff.mpr h]
  · exact served_concat_other hlock

theorem late_concat_of_poisons (hlock : t.lock = lock) (h : Poisons lock turns) :
    late lock (turns ++ [t]) = late lock turns ++ [t] := by
  simp [late, hlock, behindCrash_concat, any_crashed_iff.mpr h]

theorem served_concat_of_not_poisons (hlock : t.lock = lock) (h : ¬ Poisons lock turns) :
    served lock (turns ++ [t]) = served lock turns ++ [t] := by
  simp [served, hlock, upToCrash_concat, Bool.eq_false_iff.mpr (any_crashed_iff.not.mpr h)]

theorem late_concat_of_not_poisons (hlock : t.lock = lock) (h : ¬ Poisons lock turns) :
    late lock (turns ++ [t]) = [] := by
  simp [late, hlock, behindCrash_concat, Bool.eq_false_iff.mpr (any_crashed_iff.not.mpr h)]

theorem mem_of_mem_served (h : t ∈ served lock turns) : t ∈ turns := by
  have hmem : t ∈ served lock turns ++ late lock turns := List.mem_append_left _ h
  rw [served_append_late] at hmem
  exact List.mem_of_mem_filter hmem

theorem of_concat_same (turns : List BusTurn) (h : t.device = device) :
    of device (turns ++ [t]) = of device turns ++ [t] := by
  simp [of, h]

theorem of_concat_other (turns : List BusTurn) (h : t.device ≠ device) :
    of device (turns ++ [t]) = of device turns := by
  simp [of, h]

end BusTurn

/-! ## One bus alone -/

variable {τ : Type} [Transport τ]

/-- One transaction after the other on a bus without a controller. -/
def Transport.alone (bus : τ) : List (List UInt8 × List UInt8) → List BusAnswer × τ
  | [] => ([], bus)
  | (tx, rx) :: rest =>
    let (answer, bus) := transact bus tx rx
    let (answers, bus) := alone bus rest
    (answer :: answers, bus)

theorem Transport.alone_concat (bus : τ) (requests : List (List UInt8 × List UInt8)) (tx rx : List UInt8) :
    alone bus (requests ++ [(tx, rx)]) =
      ((alone bus requests).1 ++ [(transact (alone bus requests).2 tx rx).1],
        (transact (alone bus requests).2 tx rx).2) := by
  induction requests generalizing bus with
  | nil => rfl
  | cons request rest ih => simp [alone, ih]

/-! ## Many buses -/

/-- Devices on controllers, and the locks that are poisoned. -/
structure Bench (τ : Type) where
  poisoned : Nat → Bool
  devices : List (SharedBus τ)

namespace Bench

def empty : Bench τ :=
  ⟨fun _ => false, []⟩

def attach (w : Bench τ) (c : BusController) (bus : τ) : Bench τ :=
  { w with devices := w.devices ++ [c.attach bus] }

/-- A transaction of the device in this place, which is `b`. -/
def transact (w : Bench τ) (place : Nat) (b : SharedBus τ) (tx rx : List UInt8) : BusTurn × Bench τ :=
  let (answer, poisoned, after) := b.transact (w.poisoned b.controller.lock) tx rx
  (⟨place, b.controller.lock, tx, rx, answer⟩,
    ⟨Function.update w.poisoned b.controller.lock poisoned, w.devices.set place after⟩)

/-- Attachments and transactions in any order: what was attached to which controller, the turns so far, and what they
led to. -/
inductive Reached : List (BusController × τ) → List BusTurn → Bench τ → Prop
  | start : Reached [] [] empty
  | attach {attached : List (BusController × τ)} {past : List BusTurn} {w : Bench τ} (h : Reached attached past w)
      (c : BusController) (bus : τ) : Reached (attached ++ [(c, bus)]) past (w.attach c bus)
  | transact {attached : List (BusController × τ)} {past : List BusTurn} {w : Bench τ} (h : Reached attached past w)
      (place : Nat) {b : SharedBus τ} (hb : w.devices[place]? = some b) (tx rx : List UInt8) :
      Reached attached (past ++ [(w.transact place b tx rx).1]) (w.transact place b tx rx).2

variable {w : Bench τ} {b : SharedBus τ} {attached : List (BusController × τ)} {past : List BusTurn} {place : Nat}
  {tx rx : List UInt8}

theorem transact_of_poisoned (h : w.poisoned b.controller.lock = true) (hb : w.devices[place]? = some b) :
    w.transact place b tx rx = (⟨place, b.controller.lock, tx, rx, ⟨some (.error .poisoned), rx⟩⟩, w) := by
  obtain ⟨hlt, rfl⟩ := List.getElem?_eq_some_iff.mp hb
  simp only [transact, SharedBus.transact, h, if_true, List.set_getElem_self]
  rw [← h, Function.update_eq_self]

theorem transact_of_sound (h : w.poisoned b.controller.lock = false) :
    w.transact place b tx rx =
      (⟨place, b.controller.lock, tx, rx, (Transport.transact b.bus tx rx).1⟩,
        ⟨Function.update w.poisoned b.controller.lock (Transport.transact b.bus tx rx).1.crashed,
          w.devices.set place { b with bus := (Transport.transact b.bus tx rx).2 }⟩) := by
  simp [transact, SharedBus.transact, h]

/-- What the turns on each controller and the states of its buses tell of one another. -/
structure Isolated (attached : List (BusController × τ)) (past : List BusTurn) (w : Bench τ) : Prop where
  /-- Nothing but a crash poisons a controller, and nothing makes up for it. -/
  poisoned : ∀ lock, w.poisoned lock = true ↔ BusTurn.Poisons lock past
  late : ∀ lock, ∀ t ∈ BusTurn.late lock past, t.Refused
  length : w.devices.length = attached.length
  placed : ∀ t ∈ past, ∃ c bus, attached[t.device]? = some (c, bus) ∧ c.lock = t.lock
  alone : ∀ place c bus, attached[place]? = some (c, bus) → ∃ b, w.devices[place]? = some b ∧ b.controller = c ∧
    Transport.alone bus ((BusTurn.of place (BusTurn.served c.lock past)).map BusTurn.request) =
      ((BusTurn.of place (BusTurn.served c.lock past)).map BusTurn.answer, b.bus)

namespace Isolated

theorem empty : Isolated [] [] (empty : Bench τ) where
  poisoned lock := by simp [Bench.empty, BusTurn.Poisons]
  late lock t ht := by cases ht
  length := rfl
  placed t ht := by cases ht
  alone place c bus h := by cases h

theorem attach (h : Isolated attached past w) (c : BusController) (bus : τ) :
    Isolated (attached ++ [(c, bus)]) past (w.attach c bus) where
  poisoned := h.poisoned
  late := h.late
  length := by simp [Bench.attach, h.length]
  placed t ht := by
    obtain ⟨c', bus', hplace, hlock⟩ := h.placed t ht
    have hlt := (List.getElem?_eq_some_iff.mp hplace).1
    exact ⟨c', bus', (List.getElem?_append_left hlt).trans hplace, hlock⟩
  alone place c' bus' hplace := by
    rcases Nat.lt_or_ge place attached.length with hlt | hge
    · rw [List.getElem?_append_left hlt] at hplace
      obtain ⟨b, hb, hrest⟩ := h.alone place c' bus' hplace
      exact ⟨b, (List.getElem?_append_left (h.length ▸ hlt)).trans hb, hrest⟩
    · obtain rfl : place = attached.length := by
        have hbound := (List.getElem?_eq_some_iff.mp hplace).1
        rw [List.length_append, List.length_singleton] at hbound
        omega
      rw [List.getElem?_concat_length] at hplace
      cases hplace
      -- nobody had a turn in this place before
      have hnone : BusTurn.of attached.length (BusTurn.served c.lock past) = [] := by
        refine List.filter_eq_nil_iff.mpr fun t ht => ?_
        obtain ⟨_, _, hplaced, -⟩ := h.placed t (BusTurn.mem_of_mem_served ht)
        simp [Nat.ne_of_lt (List.getElem?_eq_some_iff.mp hplaced).1]
      refine ⟨c.attach bus, ?_, rfl, ?_⟩
      · rw [← h.length]
        exact List.getElem?_concat_length
      · rw [hnone]
        rfl

theorem attachment (h : Isolated attached past w) (hb : w.devices[place]? = some b) :
    ∃ bus, attached[place]? = some (b.controller, bus) := by
  have hlt : place < attached.length := h.length ▸ (List.getElem?_eq_some_iff.mp hb).1
  obtain ⟨b', hb', hc, -⟩ := h.alone place _ _ (List.getElem?_eq_getElem hlt)
  obtain rfl : b = b' := Option.some.inj (hb.symm.trans hb')
  exact ⟨attached[place].2, by rw [hc]; exact List.getElem?_eq_getElem hlt⟩

theorem placed_concat (h : Isolated attached past w) {t : BusTurn} (hb : w.devices[t.device]? = some b)
    (hl : b.controller.lock = t.lock) :
    ∀ u ∈ past ++ [t], ∃ c bus, attached[u.device]? = some (c, bus) ∧ c.lock = u.lock := by
  intro u hu
  rw [List.mem_append, List.mem_singleton] at hu
  cases hu with
  | inl hu => exact h.placed u hu
  | inr hu =>
      subst hu
      obtain ⟨bus, hbus⟩ := h.attachment hb
      exact ⟨b.controller, bus, hbus, hl⟩

theorem refuse (h : Isolated attached past w) {t : BusTurn} (hb : w.devices[t.device]? = some b)
    (hl : b.controller.lock = t.lock) (hlock : w.poisoned t.lock = true) (ht : t.Refused) :
    Isolated attached (past ++ [t]) w := by
  have hpoisons := (h.poisoned t.lock).mp hlock
  have hcrashed : t.crashed = false := by
    unfold BusTurn.crashed
    rw [ht]
    rfl
  refine ⟨fun lock => ?_, fun lock u hu => ?_, h.length, h.placed_concat hb hl, fun place c bus hplace => ?_⟩
  · simp [BusTurn.poisons_concat, hcrashed, h.poisoned]
  · by_cases hl : t.lock = lock
    · rw [BusTurn.late_concat_of_poisons hl (hl ▸ hpoisons), List.mem_append, List.mem_singleton] at hu
      cases hu with
      | inl hu => exact h.late _ u hu
      | inr hu => exact hu ▸ ht
    · rw [BusTurn.late_concat_other hl] at hu
      exact h.late lock u hu
  · rw [BusTurn.served_concat_of_poisons hpoisons]
    exact h.alone place c bus hplace

theorem serve (h : Isolated attached past w) {t : BusTurn} {after : τ} (hb : w.devices[t.device]? = some b)
    (hlock : t.lock = b.controller.lock) (hsound : w.poisoned t.lock = false)
    (hanswer : Transport.transact b.bus t.tx t.rx = (t.answer, after)) :
    Isolated attached (past ++ [t])
      ⟨Function.update w.poisoned t.lock t.crashed, w.devices.set t.device { b with bus := after }⟩ := by
  have hpoisons : ¬ BusTurn.Poisons t.lock past := by
    rw [← h.poisoned, hsound]
    exact Bool.false_ne_true
  have hlt : t.device < w.devices.length := (List.getElem?_eq_some_iff.mp hb).1
  refine ⟨fun lock => ?_, fun lock u hu => ?_, by simp [h.length], h.placed_concat hb hlock.symm,
    fun place c bus hplace => ?_⟩
  · rw [BusTurn.poisons_concat]
    by_cases hl : t.lock = lock
    · subst hl
      simp [hpoisons]
    · simp [h.poisoned, hl, Function.update_of_ne (Ne.symm hl)]
  · by_cases hl : t.lock = lock
    · rw [BusTurn.late_concat_of_not_poisons hl (hl ▸ hpoisons)] at hu
      cases hu
    · rw [BusTurn.late_concat_other hl] at hu
      exact h.late lock u hu
  · obtain ⟨b', hb', rfl, halone⟩ := h.alone place c bus hplace
    by_cases hd : t.device = place
    · subst hd
      obtain rfl : b = b' := Option.some.inj (hb.symm.trans hb')
      refine ⟨_, List.getElem?_set_self hlt, rfl, ?_⟩
      rw [BusTurn.served_concat_of_not_poisons hlock (hlock ▸ hpoisons), BusTurn.of_concat_same _ rfl,
        List.map_append, List.map_append, List.map_singleton, List.map_singleton, BusTurn.request,
        Transport.alone_concat, halone, hanswer]
    · refine ⟨b', (List.getElem?_set_ne hd).trans hb', rfl, ?_⟩
      by_cases hl : t.lock = b'.controller.lock
      · rw [BusTurn.served_concat_of_not_poisons hl (hl ▸ hpoisons), BusTurn.of_concat_other _ hd]
        exact halone
      · rw [BusTurn.served_concat_other hl]
        exact halone

theorem transact (h : Isolated attached past w) (hb : w.devices[place]? = some b) (tx rx : List UInt8) :
    Isolated attached (past ++ [(w.transact place b tx rx).1]) (w.transact place b tx rx).2 := by
  cases hlock : w.poisoned b.controller.lock with
  | true =>
      rw [transact_of_poisoned hlock hb]
      exact h.refuse hb rfl hlock rfl
  | false =>
      rw [transact_of_sound hlock]
      exact h.serve hb rfl hlock rfl

end Isolated

/-- Whatever the order of attachments and transactions, a device answers as its bus would alone, up to the first crash
on its controller; errors are answers like any other. All later transactions are refused, and the buses stay as
they are. -/
theorem isolated (h : Reached attached past w) : Isolated attached past w := by
  induction h with
  | start => exact .empty
  | attach _ c bus ih => exact ih.attach c bus
  | transact _ _ hb tx rx ih => exact ih.transact hb tx rx

theorem isolated_crash :
    ∃ attached past, ∃ w : Bench StandIn, Reached attached past w ∧ past.map BusTurn.crashed = [false, true, false] ∧
      Isolated attached past w := by
  have hup := (Reached.start.attach ⟨"simbus", 0⟩ (StandIn.loopback "a" none)).attach ⟨"simbus", 0⟩
    (.loopback "b" (some .crashing))
  have hcrash := (hup.transact 0 rfl [1, 2] [0, 0]).transact 1 rfl [3] [0]
  have hlate := (hcrash.attach ⟨"simbus", 0⟩ (.loopback "c" none)).transact 2 rfl [4] [0]
  exact ⟨_, _, _, hlate, rfl, isolated hlate⟩

end Bench

end Hashboard
