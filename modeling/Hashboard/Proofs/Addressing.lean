import Mathlib.Data.List.Induction
import Mathlib.Data.List.Sort
import Hashboard.Proofs.CoreMap

/-!
# Numbers and addresses of cores

Boards are pushed in any order, and a board whose asic is taken is refused. The cores of the others are
numbered one board after the other; a number and the address of its core lead to each other (`addressing`).
-/

namespace Hashboard.CoreMap

variable {boards pushes : List (UInt8 × List UInt8)} {board : UInt8 × List UInt8} {asic : UInt8}
  {statuses : List UInt8} {place n : Nat}

/-! ## Pushing boards -/

/-- Registers boards one after the other, whatever becomes of each: the map, and the boards that were not
refused. -/
def pushAll (pushes : List (UInt8 × List UInt8)) : CoreMap × List (UInt8 × List UInt8) :=
  pushes.foldl
    (fun (m, done) board =>
      match m.register board.1 board.2 with
      | (.ok (), m) => (m, done ++ [board])
      | (.error _, m) => (m, done))
    (empty, [])

theorem pushAll_of_error {m : CoreMap} {e : CoreMapError}
    (h : (pushAll pushes).1.register board.1 board.2 = (.error e, m)) :
    pushAll (pushes ++ [board]) = (m, (pushAll pushes).2) := by
  unfold pushAll at h ⊢
  simp only [List.foldl_append, List.foldl_cons, List.foldl_nil, h]

theorem pushAll_of_ok {m : CoreMap} (h : (pushAll pushes).1.register board.1 board.2 = (.ok (), m)) :
    pushAll (pushes ++ [board]) = (m, (pushAll pushes).2 ++ [board]) := by
  unfold pushAll at h ⊢
  simp only [List.foldl_append, List.foldl_cons, List.foldl_nil, h]

/-- A push that leaves no trace makes no difference to what is pushed later. -/
theorem pushAll_append (h : pushAll (pushes ++ [board]) = pushAll pushes)
    (later : List (UInt8 × List UInt8)) : pushAll (pushes ++ board :: later) = pushAll (pushes ++ later) := by
  rw [← List.singleton_append, ← List.append_assoc]
  unfold pushAll at h ⊢
  rw [List.foldl_append, h, ← List.foldl_append]

/-- Of each asic the first board is registered. -/
theorem laid_pushAll (pushes : List (UInt8 × List UInt8)) :
    Laid (pushAll pushes).1 (pushAll pushes).2 ∧
      ∀ asic, asic ∈ (pushAll pushes).2.map Prod.fst ↔ asic ∈ pushes.map Prod.fst := by
  induction pushes using List.reverseRecOn with
  | nil => exact ⟨laid_empty, by simp [pushAll]⟩
  | append_singleton pushes board ih =>
      -- a push only depends on the asics in front of it, so the last one is taken off
      obtain ⟨hlaid, hasics⟩ := ih
      rcases register_cases (pushAll pushes).1 board.1 board.2 with ⟨htaken, he⟩ | ⟨hfree, hok⟩
      · rw [hlaid.mem_iff, hasics] at htaken
        rw [pushAll_of_error he]
        refine ⟨hlaid, fun asic => ?_⟩
        rw [hasics, List.map_append, List.mem_append, List.map_singleton, List.mem_singleton]
        exact ⟨Or.inl, fun h => h.elim id fun heq => heq ▸ htaken⟩
      · rw [hlaid.mem_iff] at hfree
        rw [pushAll_of_ok hok]
        refine ⟨hlaid.withBoard hfree board.2, fun asic => ?_⟩
        simp only [List.map_append, List.mem_append, hasics]

/-! ## Addresses -/

/-- How a map numbers the cores of the boards that were not refused. -/
structure Numbers (m : CoreMap) (done : List (UInt8 × List UInt8)) : Prop where
  /-- A core is numbered behind those of the boards in front of its own. -/
  resolve_iff : ∀ asic core id, m.resolve ⟨asic, core⟩ = some id ↔ ∃ before statuses after,
    done = before ++ (asic, statuses) :: after ∧ core.toNat < statuses.length ∧
      id = ⟨coreTotal before + core.toNat⟩
  get?_eq : ∀ before asic statuses after (core : UInt32), done = before ++ (asic, statuses) :: after →
    core.toNat < statuses.length →
      m.get? ⟨coreTotal before + core.toNat⟩ = some ⟨asic, core, statuses[core.toNat]? == some 3⟩
  resolve_inj : ∀ a b id, m.resolve a = some id → m.resolve b = some id → a = b
  size_eq : m.size = coreTotal done
  /-- An address counts the cores of a board in thirty-two bits, and that is all that it can miss. -/
  reached_iff : (∀ id : CoreId, id.index < m.size → ∃! address, m.resolve address = some id) ↔
    ∀ board ∈ done, board.2.length ≤ UInt32.size
  enabled_eq : m.enabledCount = (done.map fun board => board.2.count 3).sum
  ascending : m.asics.Pairwise (· < ·)
  mem_asics : ∀ asic, asic ∈ m.asics ↔ asic ∈ done.map Prod.fst

namespace Laid

variable {m : CoreMap} {id : CoreId}

theorem resolve_inj (h : m.Laid boards) {a b : CoreAddress} (ha : m.resolve a = some id)
    (hb : m.resolve b = some id) : a = b := by
  obtain ⟨_, hata⟩ := h.resolve_iff.mp ha
  obtain ⟨_, hatb⟩ := h.resolve_iff.mp hb
  obtain ⟨hasic, hcore⟩ := hata.unique hatb
  cases a
  cases b
  simp only [CoreAddress.mk.injEq]
  exact ⟨hasic, UInt32.toNat_inj.mp hcore⟩

/-- The first core whose place no address can hold is not reached. -/
theorem not_reached (h : m.Laid boards) {before after : List (UInt8 × List UInt8)}
    (hsplit : boards = before ++ board :: after) (hlong : UInt32.size < board.2.length) :
    coreTotal before + UInt32.size < m.size ∧
      ¬ ∃ address, m.resolve address = some ⟨coreTotal before + UInt32.size⟩ := by
  have hat : CoreAt boards board.1 board.2 UInt32.size (coreTotal before + UInt32.size) :=
    coreAt_iff.mpr ⟨before, after, hsplit, hlong, rfl⟩
  refine ⟨h.size_eq ▸ hat.lt, ?_⟩
  rintro ⟨address, hresolve⟩
  obtain ⟨_, hother⟩ := h.resolve_iff.mp hresolve
  exact Nat.ne_of_lt address.core.toNat_lt_size (hother.unique hat).2

theorem resolve_surjective_iff (h : m.Laid boards) :
    (∀ id : CoreId, id.index < m.size → ∃! address, m.resolve address = some id) ↔
      ∀ board ∈ boards, board.2.length ≤ UInt32.size := by
  constructor
  · intro hall board hb
    by_contra hlong
    obtain ⟨before, after, hsplit⟩ := List.mem_iff_append.mp hb
    obtain ⟨hlt, hnone⟩ := h.not_reached hsplit (Nat.lt_of_not_le hlong)
    exact hnone (hall ⟨_⟩ hlt).exists
  · intro hshort id hid
    obtain ⟨asic, statuses, place, hat⟩ := exists_coreAt (h.size_eq ▸ hid)
    have hplace : place < UInt32.size := Nat.lt_of_lt_of_le hat.place_lt (hshort _ hat.mem)
    have hresolve : m.resolve ⟨asic, UInt32.ofNat place⟩ = some id := by
      refine h.resolve_iff.mpr ⟨statuses, ?_⟩
      rwa [UInt32.toNat_ofNat_of_lt' hplace]
    exact ⟨_, hresolve, fun _ hother => h.resolve_inj hother hresolve⟩

theorem asics_ascending (m : CoreMap) : m.asics.Pairwise (· < ·) := by
  exact Std.TreeMap.ordered_keys.imp Std.compare_eq_lt.mp

theorem numbers (h : m.Laid boards) : Numbers m boards where
  resolve_iff := by
    intro asic core id
    rw [h.resolve_iff]
    constructor
    · rintro ⟨statuses, hat⟩
      obtain ⟨before, after, hdone, hlt, hid⟩ := coreAt_iff.mp hat
      exact ⟨before, statuses, after, hdone, hlt, congrArg CoreId.mk hid⟩
    · rintro ⟨before, statuses, after, hdone, hlt, rfl⟩
      exact ⟨statuses, coreAt_iff.mpr ⟨before, after, hdone, hlt, rfl⟩⟩
  get?_eq := by
    intro before asic statuses after core hdone hlt
    rw [h.get?_eq (coreAt_iff.mpr ⟨before, after, hdone, hlt, rfl⟩), UInt32.ofNat_toNat]
  resolve_inj _ _ _ := h.resolve_inj
  size_eq := h.size_eq
  reached_iff := h.resolve_surjective_iff
  enabled_eq := h.enabledCount_eq
  ascending := asics_ascending m
  mem_asics _ := Std.TreeMap.mem_keys.trans h.mem_iff

end Laid

/-- Numbers and addresses of cores, whatever boards are pushed. -/
theorem addressing (pushes : List (UInt8 × List UInt8)) :
    Numbers (pushAll pushes).1 (pushAll pushes).2 ∧
    (∀ asic statuses, asic ∉ pushes.map Prod.fst →
      ∃ m, (pushAll pushes).1.register asic statuses = (.ok (), m) ∧
        pushAll (pushes ++ [(asic, statuses)]) = (m, (pushAll pushes).2 ++ [(asic, statuses)])) ∧
    ∀ asic statuses later, asic ∈ pushes.map Prod.fst →
      (pushAll pushes).1.register asic statuses = (.error (.duplicateAsic asic), (pushAll pushes).1) ∧
        pushAll (pushes ++ (asic, statuses) :: later) = pushAll (pushes ++ later) := by
  obtain ⟨hlaid, hasics⟩ := laid_pushAll pushes
  have hknown : ∀ asic, asic ∈ (pushAll pushes).1.byAsic ↔ asic ∈ pushes.map Prod.fst :=
    fun asic => hlaid.mem_iff.trans (hasics asic)
  refine ⟨hlaid.numbers, ?_, ?_⟩
  · intro asic statuses hnew
    rcases register_cases (pushAll pushes).1 asic statuses with ⟨htaken, _⟩ | ⟨_, hok⟩
    · exact absurd ((hknown asic).mp htaken) hnew
    · exact ⟨_, hok, pushAll_of_ok hok⟩
  · intro asic statuses later hold
    rcases register_cases (pushAll pushes).1 asic statuses with ⟨_, he⟩ | ⟨hfree, _⟩
    · exact ⟨he, pushAll_append (pushAll_of_error he) later⟩
    · exact absurd ((hknown asic).mpr hold) hfree

/-- An empty board, a board that is refused, and asics that come in descending order. -/
theorem addressing_refused :
    let pushes : List (UInt8 × List UInt8) := [(5, [3, 0, 3]), (2, []), (5, [1])]
    let m := (pushAll (pushes ++ [(1, [0, 3])])).1
    (pushAll pushes).1.register 1 [0, 3] = (.ok (), m) ∧
      m.register 5 [1] = (.error (.duplicateAsic 5), m) ∧
      m.resolve ⟨1, 1⟩ = some ⟨4⟩ ∧ m.get? ⟨4⟩ = some ⟨1, 1, true⟩ ∧
      (∃! address, m.resolve address = some ⟨2⟩) ∧ m.asics = [1, 2, 5] := by
  intro pushes m
  obtain ⟨_, hnew, _⟩ := addressing pushes
  obtain ⟨m', hok, hm'⟩ := hnew 1 [0, 3] (by decide)
  obtain rfl : m = m' := congrArg Prod.fst hm'
  obtain ⟨hnumbers, _, hrefused⟩ := addressing (pushes ++ [(1, [0, 3])])
  have hdone : (pushAll (pushes ++ [(1, [0, 3])])).2 = [(5, [3, 0, 3]), (2, [])] ++ (1, [0, 3]) :: [] := by
    decide
  have hresolve : m.resolve ⟨1, 1⟩ = some ⟨4⟩ :=
    (hnumbers.resolve_iff 1 1 ⟨4⟩).mpr ⟨_, _, _, hdone, by decide, by decide⟩
  refine ⟨hok, (hrefused 5 [1] [] (by decide)).1, hresolve, ?_, ?_, ?_⟩
  · exact hnumbers.get?_eq _ 1 _ _ 1 hdone (by decide)
  · exact hnumbers.reached_iff.mpr (by decide) ⟨2⟩ (by decide)
  · refine hnumbers.ascending.eq_of_mem_iff (by decide) fun asic => ?_
    rw [hnumbers.mem_asics, hdone]
    simp only [List.map_cons, List.map_append, List.mem_append, List.mem_cons]
    tauto

theorem laid_pushAll_single (board : UInt8 × List UInt8) : Laid (pushAll [board]).1 [board] := by
  obtain ⟨m, hok, hm⟩ := laid_empty.register List.not_mem_nil board.2
  have hpush : pushAll [board] = (m, [board]) := @pushAll_of_ok [] board m hok
  rwa [hpush]

/-- A board with one core more than an address can count: no address reaches that core. -/
theorem unreached_core :
    let m := (pushAll [(0, List.replicate (UInt32.size + 1) 3)]).1
    (⟨UInt32.size⟩ : CoreId).index < m.size ∧ ¬ ∃ address, m.resolve address = some ⟨UInt32.size⟩ := by
  have hlong : UInt32.size < (List.replicate (UInt32.size + 1) (3 : UInt8)).length := by
    rw [List.length_replicate]
    exact Nat.lt_succ_self _
  have hmiss := (laid_pushAll_single (0, List.replicate (UInt32.size + 1) 3)).not_reached
    (List.nil_append _).symm hlong
  rwa [coreTotal, List.map_nil, List.sum_nil, Nat.zero_add] at hmiss

end Hashboard.CoreMap
