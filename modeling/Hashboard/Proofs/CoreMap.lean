import Mathlib.Algebra.Ring.Nat
import Mathlib.Data.List.Nodup
import Hashboard.CoreMap
import Hashboard.Simulator

/-!
# The cores of registered boards

A core map keeps the cores of all boards in one row, and beside it the numbers of each asic's cores. A map that
is laid out like some boards holds in the row their cores one board after the other, and under an asic the places
of its cores there; registering a board keeps the two in step. A simulator with the same boards counts its cores
off in the same way, so the address that it gives to a slot resolves to the core of that number.
-/

namespace Hashboard

/-! ## One more board -/

/-- A registered board: the number of its first core, and for each core whether it works. -/
structure Board where
  asic : UInt8
  first : Nat
  enabled : List Bool

namespace Board

/-- The cores of the board as they stand in the row. -/
def cores (b : Board) : List Core :=
  b.enabled.zipIdx.map fun (enabled, place) => ⟨b.asic, UInt32.ofNat place, enabled⟩

/-- The numbers of its cores. -/
def ids (b : Board) : List CoreId :=
  (List.range' b.first b.enabled.length).map CoreId.mk

theorem map_enabled_cores (b : Board) : b.cores.map Core.enabled = b.enabled := by
  simp [cores, Function.comp_def]

end Board

namespace CoreMap

/-- The map with one more board, in the row and beside it. -/
def withBoard (m : CoreMap) (b : Board) : CoreMap :=
  ⟨m.cores ++ b.cores.toArray, m.byAsic.insert b.asic b.ids.toArray⟩

/-- The map with more boards, one after the other. -/
def withBoards (m : CoreMap) (bs : List Board) : CoreMap :=
  bs.foldl withBoard m

variable {m : CoreMap} {boards : List (UInt8 × List UInt8)} {asic : UInt8} {statuses : List UInt8}
  {place n : Nat}

theorem size_withBoard (m : CoreMap) (b : Board) : (m.withBoard b).size = m.size + b.enabled.length := by
  simp [size, withBoard, Board.cores]

theorem mem_withBoard {b : Board} : asic ∈ (m.withBoard b).byAsic ↔ b.asic = asic ∨ asic ∈ m.byAsic := by
  simp [withBoard, Std.TreeMap.mem_insert]

theorem cores_withBoards (m : CoreMap) (bs : List Board) :
    (m.withBoards bs).cores.toList = m.cores.toList ++ bs.flatMap Board.cores := by
  rw [withBoards]
  induction bs generalizing m with
  | nil => simp
  | cons b rest ih => simp [ih, withBoard]

theorem isEmpty_withBoards (m : CoreMap) (bs : List Board) :
    (m.withBoards bs).byAsic.isEmpty = true ↔ m.byAsic.isEmpty = true ∧ bs = [] := by
  rw [withBoards]
  induction bs generalizing m with
  | nil => simp
  | cons b rest ih => simp [ih, withBoard, Std.TreeMap.isEmpty_insert]

theorem enterCores_eq (asic : UInt8) (place : Nat) (statuses : List UInt8) (cores : Array Core)
    (ids : Array CoreId) : enterCores asic place statuses cores ids =
      (cores ++ ((statuses.zipIdx place).map fun (status, place) =>
          (⟨asic, UInt32.ofNat place, status == Wire.coreStatusOk⟩ : Core)).toArray,
        ids ++ ((List.range' cores.size statuses.length).map CoreId.mk).toArray) := by
  induction statuses generalizing place cores ids with
  | nil => simp [enterCores]
  | cons status rest ih => simp [enterCores, ih, List.range'_succ]

theorem register_cases (m : CoreMap) (asic : UInt8) (statuses : List UInt8) :
    (asic ∈ m.byAsic ∧ m.register asic statuses = (.error (.duplicateAsic asic), m)) ∨
      (asic ∉ m.byAsic ∧ m.register asic statuses =
        (.ok (), m.withBoard ⟨asic, m.size, statuses.map (· == Wire.coreStatusOk)⟩)) := by
  unfold register
  by_cases h : asic ∈ m.byAsic
  · exact .inl ⟨h, if_pos (Std.TreeMap.contains_iff_mem.mpr h)⟩
  · refine .inr ⟨h, ?_⟩
    rw [if_neg (mt Std.TreeMap.contains_iff_mem.mp h), enterCores_eq]
    simp [withBoard, Board.cores, Board.ids, size, List.zipIdx_map, Function.comp_def]

/-- The number of cores on boards that are given by their status bytes. -/
def coreTotal (boards : List (UInt8 × List UInt8)) : Nat :=
  (boards.map fun board => board.2.length).sum

/-! ## Cores in a row -/

/-- Core `place` on the board of an asic is core `n` in the row of all cores. -/
inductive CoreAt : List (UInt8 × List UInt8) → (asic : UInt8) → (statuses : List UInt8) →
    (place n : Nat) → Prop where
  | here {asic statuses place rest} : place < statuses.length →
      CoreAt ((asic, statuses) :: rest) asic statuses place place
  | behind (board : UInt8 × List UInt8) {rest asic statuses place n} : CoreAt rest asic statuses place n →
      CoreAt (board :: rest) asic statuses place (board.2.length + n)

theorem CoreAt.mem (h : CoreAt boards asic statuses place n) : (asic, statuses) ∈ boards := by
  induction h with
  | here => exact List.mem_cons_self
  | behind _ _ ih => exact List.mem_cons_of_mem _ ih

theorem CoreAt.place_lt (h : CoreAt boards asic statuses place n) : place < statuses.length := by
  induction h with
  | here hlt => exact hlt
  | behind _ _ ih => exact ih

theorem CoreAt.lt (h : CoreAt boards asic statuses place n) : n < coreTotal boards := by
  induction h with
  | here hlt => simp only [coreTotal, List.map_cons, List.sum_cons]; omega
  | behind _ _ ih => simp only [coreTotal, List.map_cons, List.sum_cons] at ih ⊢; omega

theorem exists_coreAt (h : n < coreTotal boards) :
    ∃ asic statuses place, CoreAt boards asic statuses place n := by
  induction boards generalizing n with
  | nil => simp [coreTotal] at h
  | cons board rest ih =>
      rcases Nat.lt_or_ge n board.2.length with hhere | hbehind
      · exact ⟨board.1, board.2, n, .here hhere⟩
      · obtain ⟨k, rfl⟩ := Nat.exists_eq_add_of_le hbehind
        have hk : k < coreTotal rest := by
          simp only [coreTotal, List.map_cons, List.sum_cons] at h ⊢
          omega
        obtain ⟨asic, statuses, place, hat⟩ := ih hk
        exact ⟨asic, statuses, place, .behind board hat⟩

theorem CoreAt.unique {asic' : UInt8} {statuses' : List UInt8} {place' : Nat}
    (h : CoreAt boards asic statuses place n) (h' : CoreAt boards asic' statuses' place' n) :
    asic = asic' ∧ place = place' := by
  induction h generalizing asic' statuses' place' with
  | here hlt =>
      cases h' with
      | here => exact ⟨rfl, rfl⟩
      | behind => simp only [] at hlt; omega
  | @behind board _ _ _ _ k hat ih =>
      generalize hn : board.2.length + k = n at h'
      cases h' with
      | here hlt => simp only [] at hn; omega
      | @behind _ _ _ _ _ k' hat' =>
          obtain rfl : k = k' := by omega
          exact ih hat'

/-- The boards in front of a core's own board, and the cores in front of it there, make up its number. -/
theorem coreAt_iff : CoreAt boards asic statuses place n ↔
    ∃ before after, boards = before ++ (asic, statuses) :: after ∧ place < statuses.length ∧
      n = coreTotal before + place := by
  constructor
  · intro h
    induction h with
    | @here _ _ _ rest hlt => exact ⟨[], rest, rfl, hlt, by simp [coreTotal]⟩
    | @behind board _ _ _ _ _ _ ih =>
        obtain ⟨before, after, rfl, hlt, rfl⟩ := ih
        exact ⟨board :: before, after, rfl, hlt, by simp [coreTotal, Nat.add_assoc]⟩
  · rintro ⟨before, after, rfl, hlt, rfl⟩
    induction before with
    | nil => simpa [coreTotal] using CoreAt.here hlt
    | cons board before ih => simpa [coreTotal, Nat.add_assoc] using CoreAt.behind board ih

/-! ## Maps laid out like some boards -/

/-- The cores of a board that is given by its status bytes. -/
def coresOf (board : UInt8 × List UInt8) : List Core :=
  (⟨board.1, 0, board.2.map (· == Wire.coreStatusOk)⟩ : Board).cores

/-- A board with this asic stands in the list, and so many cores in front of it. -/
def BoardAt (boards : List (UInt8 × List UInt8)) (asic : UInt8) (statuses : List UInt8) (first : Nat) : Prop :=
  ∃ before after, boards = before ++ (asic, statuses) :: after ∧ first = coreTotal before

theorem BoardAt.mem {first : Nat} (h : BoardAt boards asic statuses first) : (asic, statuses) ∈ boards := by
  obtain ⟨before, after, rfl, _⟩ := h
  simp

theorem exists_boardAt (h : asic ∈ boards.map Prod.fst) : ∃ statuses first, BoardAt boards asic statuses first := by
  obtain ⟨⟨_, statuses⟩, hboard, rfl⟩ := List.mem_map.mp h
  obtain ⟨before, after, hsplit⟩ := List.mem_iff_append.mp hboard
  exact ⟨statuses, _, before, after, hsplit, rfl⟩

theorem boardAt_concat {board : UInt8 × List UInt8} {first : Nat} :
    BoardAt (boards ++ [board]) asic statuses first ↔
      BoardAt boards asic statuses first ∨ board = (asic, statuses) ∧ first = coreTotal boards := by
  constructor
  · rintro ⟨before, after, hsplit, hfirst⟩
    rcases List.eq_nil_or_concat after with rfl | ⟨after, last, rfl⟩
    · obtain ⟨rfl, hlast⟩ := List.append_inj' hsplit rfl
      exact .inr ⟨(List.cons.inj hlast).1, hfirst⟩
    · rw [List.concat_eq_append, ← List.cons_append, ← List.append_assoc] at hsplit
      exact .inl ⟨before, after, (List.append_inj' hsplit rfl).1, hfirst⟩
  · rintro (⟨before, after, rfl, hfirst⟩ | ⟨rfl, hfirst⟩)
    · exact ⟨before, after ++ [board], by simp, hfirst⟩
    · exact ⟨boards, [], rfl, hfirst⟩

/-- The row holds the cores of the boards one board after the other, and under each asic stand the places of
its cores in the row. -/
structure Laid (m : CoreMap) (boards : List (UInt8 × List UInt8)) : Prop where
  nodup : (boards.map Prod.fst).Nodup
  cores_eq : m.cores.toList = boards.flatMap coresOf
  byAsic_iff : ∀ asic ids, m.byAsic[asic]? = some ids ↔ ∃ statuses first,
    BoardAt boards asic statuses first ∧ ids.toList = (List.range' first statuses.length).map CoreId.mk

theorem length_coresOf (board : UInt8 × List UInt8) : (coresOf board).length = board.2.length := by
  simp [coresOf, Board.cores]

theorem length_flatMap_coresOf (boards : List (UInt8 × List UInt8)) :
    (boards.flatMap coresOf).length = coreTotal boards := by
  rw [List.length_flatMap, coreTotal]
  exact congrArg List.sum (List.map_congr_left fun board _ => length_coresOf board)

theorem CoreAt.getElem?_flatMap (h : CoreAt boards asic statuses place n) :
    (boards.flatMap coresOf)[n]? = some ⟨asic, UInt32.ofNat place, statuses[place]? == some 3⟩ := by
  induction h with
  | here hlt =>
      rw [List.flatMap_cons, List.getElem?_append_left (by rwa [length_coresOf])]
      simp [coresOf, Board.cores, hlt, Wire.coreStatusOk]
  | behind board _ ih =>
      rw [List.flatMap_cons, List.getElem?_append_right (by rw [length_coresOf]; omega), length_coresOf,
        Nat.add_sub_cancel_left]
      exact ih

theorem laid_empty : Laid empty [] :=
  ⟨List.nodup_nil, rfl, by simp [empty, BoardAt]⟩

namespace Laid

theorem size_eq (h : m.Laid boards) : m.size = coreTotal boards := by
  rw [size, ← Array.length_toList, h.cores_eq, length_flatMap_coresOf]

theorem mem_iff (h : m.Laid boards) : asic ∈ m.byAsic ↔ asic ∈ boards.map Prod.fst := by
  rw [Std.TreeMap.mem_iff_isSome_getElem?, Option.isSome_iff_exists]
  constructor
  · rintro ⟨ids, hids⟩
    obtain ⟨_, _, hat, _⟩ := (h.byAsic_iff asic ids).mp hids
    exact List.mem_map.mpr ⟨_, hat.mem, rfl⟩
  · intro hmem
    obtain ⟨statuses, first, hat⟩ := exists_boardAt hmem
    exact ⟨((List.range' first statuses.length).map CoreId.mk).toArray,
      (h.byAsic_iff _ _).mpr ⟨statuses, first, hat, rfl⟩⟩

/-- A new board comes last in the row, and its cores get the numbers behind all others. -/
theorem withBoard (h : m.Laid boards) (hnew : asic ∉ boards.map Prod.fst) (statuses : List UInt8) :
    (m.withBoard ⟨asic, m.size, statuses.map (· == Wire.coreStatusOk)⟩).Laid
      (boards ++ [(asic, statuses)]) where
  nodup := by
    rw [List.map_append, List.map_singleton, List.nodup_append]
    refine ⟨h.nodup, List.nodup_singleton _, ?_⟩
    intro a ha b hb hab
    rw [hab, List.mem_singleton.mp hb] at ha
    exact hnew ha
  cores_eq := by
    simp [CoreMap.withBoard, h.cores_eq, coresOf, Board.cores]
  byAsic_iff := by
    intro asic' ids
    simp only [CoreMap.withBoard, Std.TreeMap.getElem?_insert, boardAt_concat]
    by_cases hasic : asic = asic'
    · subst hasic
      rw [if_pos Std.ReflCmp.compare_self, Option.some.injEq, h.size_eq]
      constructor
      · rintro rfl
        exact ⟨statuses, _, .inr ⟨rfl, rfl⟩, by simp [Board.ids]⟩
      · rintro ⟨statuses', first, hat | ⟨heq, rfl⟩, hids⟩
        · exact absurd (List.mem_map.mpr ⟨_, hat.mem, rfl⟩) hnew
        · cases heq
          exact Array.toList_inj.mp (by simp [Board.ids, hids])
    · rw [if_neg (mt Std.LawfulEqCmp.eq_of_compare hasic), h.byAsic_iff]
      simp [hasic]

/-- A board with a new asic can be registered. -/
theorem register (h : m.Laid boards) (hnew : asic ∉ boards.map Prod.fst) (statuses : List UInt8) :
    ∃ m', m.register asic statuses = (.ok (), m') ∧ m'.Laid (boards ++ [(asic, statuses)]) := by
  rcases register_cases m asic statuses with ⟨htaken, _⟩ | ⟨_, hok⟩
  · exact absurd (h.mem_iff.mp htaken) hnew
  · exact ⟨_, hok, h.withBoard hnew statuses⟩

/-- An address leads to the core that stands at this place of its asic's board. -/
theorem resolve_iff (h : m.Laid boards) {core : UInt32} {id : CoreId} :
    m.resolve ⟨asic, core⟩ = some id ↔ ∃ statuses, CoreAt boards asic statuses core.toNat id.index := by
  have hget : ∀ first len (ids : Array CoreId), ids.toList = (List.range' first len).map CoreId.mk →
      (ids[core.toNat]? = some id ↔ core.toNat < len ∧ id.index = first + core.toNat) := by
    intro first len ids hids
    rw [← Array.getElem?_toList, hids, List.getElem?_map, Option.map_eq_some_iff]
    rcases Nat.lt_or_ge core.toNat len with hlt | hge
    · obtain ⟨k⟩ := id
      simp [hlt, eq_comm]
    · simp [Nat.not_lt.mpr hge]
  rw [resolve, Option.bind_eq_some_iff]
  constructor
  · rintro ⟨ids, hids, hcore⟩
    obtain ⟨statuses, first, ⟨before, after, hsplit, rfl⟩, hrow⟩ := (h.byAsic_iff asic ids).mp hids
    obtain ⟨hlt, hid⟩ := (hget _ _ ids hrow).mp hcore
    exact ⟨statuses, coreAt_iff.mpr ⟨before, after, hsplit, hlt, hid⟩⟩
  · rintro ⟨statuses, hat⟩
    obtain ⟨before, after, hsplit, hlt, hid⟩ := coreAt_iff.mp hat
    let ids := ((List.range' (coreTotal before) statuses.length).map CoreId.mk).toArray
    exact ⟨ids, (h.byAsic_iff asic ids).mpr ⟨statuses, _, ⟨before, after, hsplit, rfl⟩, rfl⟩,
      (hget _ _ ids rfl).mpr ⟨hlt, hid⟩⟩

theorem get?_eq (h : m.Laid boards) (hat : CoreAt boards asic statuses place n) :
    m.get? ⟨n⟩ = some ⟨asic, UInt32.ofNat place, statuses[place]? == some 3⟩ := by
  rw [get?, ← Array.getElem?_toList, h.cores_eq, hat.getElem?_flatMap]

theorem enabledCount_eq (h : m.Laid boards) :
    m.enabledCount = (boards.map fun board => board.2.count 3).sum := by
  rw [enabledCount, ← Array.countP_toList, h.cores_eq, List.countP_flatMap]
  refine congrArg List.sum (List.map_congr_left fun board _ => ?_)
  rw [Function.comp_apply, ← Function.id_comp Core.enabled, ← List.countP_map, coresOf, Board.map_enabled_cores,
    List.countP_map]
  rfl

end Laid

/-- Boards with different asics can all be registered. -/
theorem registerAll_laid (h : (boards.map Prod.fst).Nodup) :
    ∃ m, empty.registerAll boards = .ok m ∧ m.Laid boards := by
  have hfront : ∀ (m : CoreMap) front rest, m.Laid front → ((front ++ rest).map Prod.fst).Nodup →
      ∃ m', m.registerAll rest = .ok m' ∧ m'.Laid (front ++ rest) := by
    intro m front rest
    induction rest generalizing m front with
    | nil => exact fun hm _ => ⟨m, rfl, by simpa using hm⟩
    | cons board rest ih =>
        intro hm hnd
        have hnew : board.1 ∉ front.map Prod.fst := by
          rw [List.map_append, List.map_cons, List.nodup_append] at hnd
          exact fun hmem => hnd.2.2 _ hmem _ List.mem_cons_self rfl
        obtain ⟨m', hok, hm'⟩ := hm.register hnew board.2
        obtain ⟨m'', hall, hm''⟩ := ih m' (front ++ [board]) hm' (by simpa using hnd)
        exact ⟨m'', by simp only [registerAll, hok, hall], by simpa using hm''⟩
  exact hfront empty [] boards laid_empty h

end CoreMap

/-! ## Addresses -/

namespace SimulatorSettings

open CoreMap

variable {boards : List (UInt8 × List UInt8)} {slot : UInt32}

/-- The boards of a simulator, given by their status bytes. -/
def boardsOf (boards : List (UInt8 × List UInt8)) : List (UInt8 × UInt32) :=
  boards.map fun board => (board.1, UInt32.ofNat board.2.length)

theorem toNat_cores {n : Nat} (h : n < UInt32.size) : (UInt32.ofNat n).toNat = n :=
  UInt32.toNat_ofNat_of_lt' h

theorem coreTotal_cons (board : UInt8 × List UInt8) :
    coreTotal (board :: boards) = board.2.length + coreTotal boards := by
  simp [coreTotal]

theorem coreCount_eq {s : SimulatorSettings} (h : s.boards = boardsOf boards)
    (hlt : coreTotal boards < UInt32.size) : s.coreCount = coreTotal boards := by
  rw [coreCount, h]
  clear h
  induction boards with
  | nil => rfl
  | cons board rest ih =>
      rw [coreTotal_cons] at hlt ⊢
      rw [← ih (by omega)]
      show (UInt32.ofNat board.2.length).toNat + _ = _
      rw [toNat_cores (by omega)]
      rfl

private theorem toNat_sub_cores {n : Nat} (hn : n < UInt32.size) (h : ¬ slot < UInt32.ofNat n) :
    n ≤ slot.toNat ∧ (slot - UInt32.ofNat n).toNat = slot.toNat - n := by
  rw [UInt32.lt_iff_toNat_lt, toNat_cores hn, Nat.not_lt] at h
  refine ⟨h, ?_⟩
  rw [UInt32.toNat_sub_of_le, toNat_cores hn]
  rw [UInt32.le_iff_toNat_le, toNat_cores hn]
  exact h

/-- The walk over the boards ends at the core whose number is the slot. -/
theorem coreAt_locate (hlt : coreTotal boards < UInt32.size) (h : slot.toNat < coreTotal boards) :
    ∃ statuses, CoreAt boards (locate (boardsOf boards) slot).asic statuses
      (locate (boardsOf boards) slot).core.toNat slot.toNat := by
  induction boards generalizing slot with
  | nil => simp [coreTotal] at h
  | cons board rest ih =>
      rw [coreTotal_cons] at hlt h
      simp only [boardsOf, List.map_cons, locate]
      split
      · rename_i hhere
        rw [UInt32.lt_iff_toNat_lt, toNat_cores (by omega)] at hhere
        exact ⟨board.2, .here hhere⟩
      · rename_i hbeyond
        obtain ⟨hle, hsub⟩ := toNat_sub_cores (by omega) hbeyond
        obtain ⟨statuses, hat⟩ := @ih (slot - UInt32.ofNat board.2.length) (by omega) (by omega)
        have hnext := hat.behind board
        rw [hsub, Nat.add_sub_cancel' hle] at hnext
        exact ⟨statuses, hnext⟩

/-- The core that works on an item is the one whose number is the id modulo the number of cores. -/
theorem coreAt_addressFor {s : SimulatorSettings} (h : s.boards = boardsOf boards)
    (hpos : 0 < coreTotal boards) (hlt : coreTotal boards < UInt32.size) (id : UInt16) :
    ∃ statuses, CoreAt boards (s.addressFor id).asic statuses (s.addressFor id).core.toNat
      (id.toNat % s.coreCount) := by
  have hmod : id.toNat % coreTotal boards < coreTotal boards := Nat.mod_lt _ hpos
  rw [addressFor, h, coreCount_eq h hlt, Nat.max_eq_left hpos]
  generalize hslot : UInt32.ofNat (id.toNat % coreTotal boards) = slot
  have hnumber : slot.toNat = id.toNat % coreTotal boards := hslot ▸ toNat_cores (by omega)
  obtain ⟨statuses, hat⟩ := coreAt_locate hlt (hnumber ▸ hmod)
  exact ⟨statuses, hnumber ▸ hat⟩

end SimulatorSettings

end Hashboard
