import Mathlib.Algebra.Ring.Nat
import Mathlib.Data.List.Induction
import Hashboard.Bytes
import Hashboard.Wire

/-!
# Numbers, fields and pieces of byte strings

Reading a number back and writing it back, the bits of a field that hold a work id, reading a field out of a
concatenation, and cutting a concatenation of equally long parts into these parts.
-/

namespace Hashboard.Bytes

/-! ## Numbers -/

theorem toNat_concat (bytes : List UInt8) (b : UInt8) :
    toNat (bytes ++ [b]) = toNat bytes * 256 + b.toNat := by
  simp [toNat, List.foldl_append]

@[simp] theorem ofNat_length (width n : Nat) : (ofNat width n).length = width := by
  induction width generalizing n with
  | zero => rfl
  | succ width ih => simp [ofNat, ih]

theorem toNat_ofNat (width n : Nat) : toNat (ofNat width n) = n % 256 ^ width := by
  induction width generalizing n with
  | zero => simp [ofNat, toNat, Nat.mod_one]
  | succ width ih =>
      have hdigit : (UInt8.ofNat n).toNat = n % 256 := UInt8.toNat_ofNat'
      rw [ofNat, toNat_concat, ih, hdigit, Nat.pow_succ', Nat.mod_mul]
      omega

theorem toNat_ofNat_of_lt {width n : Nat} (h : n < 256 ^ width) : toNat (ofNat width n) = n := by
  rw [toNat_ofNat, Nat.mod_eq_of_lt h]

theorem toNat_lt (bytes : List UInt8) : toNat bytes < 256 ^ bytes.length := by
  induction bytes using List.reverseRecOn with
  | nil => decide
  | append_singleton bytes b ih =>
      have hb : b.toNat < 256 := b.toNat_lt
      rw [toNat_concat, List.length_append, List.length_singleton, Nat.pow_succ]
      omega

/-- Writing a number that was read gives the bytes it was read from. -/
theorem ofNat_toNat (bytes : List UInt8) : ofNat bytes.length (toNat bytes) = bytes := by
  induction bytes using List.reverseRecOn with
  | nil => rfl
  | append_singleton bytes b ih =>
      have hb : b.toNat < 256 := b.toNat_lt
      have hhigh : (toNat bytes * 256 + b.toNat) / 256 = toNat bytes := by omega
      have hlow : UInt8.ofNat (toNat bytes * 256 + b.toNat) = b := by
        rw [← UInt8.toNat_inj, UInt8.toNat_ofNat']
        omega
      rw [toNat_concat, List.length_append, List.length_singleton, ofNat, hhigh, hlow, ih]

/-! ## Work ids -/

theorem and_idMask (n : UInt16) : n &&& Wire.idMask = n % 32768 := by
  rw [← UInt16.toNat_inj, UInt16.toNat_and, UInt16.toNat_mod]
  exact Nat.and_two_pow_sub_one_eq_mod _ 15

/-- Writing an id that was read gives the bytes it was read from, but for their top bit. -/
theorem ofNat_id (high low : UInt8) :
    ofNat 2 (UInt16.ofNat (toNat [high, low]) &&& Wire.idMask).toNat = [high &&& 0x7f, low] := by
  have hhigh : (high &&& 0x7f).toNat = high.toNat % 128 := by
    rw [UInt8.toNat_and]
    exact Nat.and_two_pow_sub_one_eq_mod _ 7
  have hnumber : (UInt16.ofNat (toNat [high, low]) &&& Wire.idMask).toNat = toNat [high &&& 0x7f, low] := by
    have hlow := low.toNat_lt
    rw [and_idMask, UInt16.toNat_mod, UInt16.toNat_ofNat']
    simp only [toNat, List.foldl_cons, List.foldl_nil, hhigh, UInt16.reduceToNat]
    omega
  rw [hnumber]
  exact ofNat_toNat [high &&& 0x7f, low]

/-! ## Fields -/

section Fields

variable {start count : Nat} {before field behind : List UInt8}

theorem slice_append (hb : before.length = start) (hf : field.length = count) :
    slice start count (before ++ (field ++ behind)) = field := by
  subst hb hf
  simp [slice]

theorem u16At_append {n : UInt16} (hb : before.length = start) :
    u16At start (before ++ (ofNat 2 n.toNat ++ behind)) = n := by
  rw [u16At, slice_append hb (ofNat_length _ _), toNat_ofNat_of_lt n.toNat_lt, UInt16.ofNat_toNat]

theorem u32At_append {n : UInt32} (hb : before.length = start) :
    u32At start (before ++ (ofNat 4 n.toNat ++ behind)) = n := by
  rw [u32At, slice_append hb (ofNat_length _ _), toNat_ofNat_of_lt n.toNat_lt, UInt32.ofNat_toNat]

end Fields

theorem slice_length {start count : Nat} {bytes : List UInt8} (h : start + count ≤ bytes.length) :
    (slice start count bytes).length = count := by
  rw [slice, List.length_take, List.length_drop]
  omega

theorem ofNat_u32At {start : Nat} {bytes : List UInt8} (h : start + 4 ≤ bytes.length) :
    ofNat 4 (u32At start bytes).toNat = slice start 4 bytes := by
  have hlt := toNat_lt (slice start 4 bytes)
  have hback := ofNat_toNat (slice start 4 bytes)
  rw [slice_length h] at hlt hback
  rw [u32At, UInt32.toNat_ofNat_of_lt' hlt, hback]

/-! ## Pieces -/

section Pieces

variable {α : Type} {size : Nat}

@[simp] theorem pieces_length (count : Nat) (xs : List α) : (pieces size count xs).length = count := by
  induction count generalizing xs with
  | zero => rfl
  | succ count ih => simp [pieces, ih]

theorem pieces_getElem? {count k : Nat} (h : k < count) (xs : List α) :
    (pieces size count xs)[k]? = some ((xs.drop (size * k)).take size) := by
  induction count generalizing xs k with
  | zero => omega
  | succ count ih =>
      cases k with
      | zero => simp [pieces]
      | succ k =>
          rw [pieces, List.getElem?_cons_succ, ih (by omega), List.drop_drop, Nat.mul_succ, Nat.add_comm]

theorem pieces_flatten (count : Nat) (xs : List α) :
    (pieces size count xs).flatten = xs.take (size * count) := by
  induction count generalizing xs with
  | zero => simp [pieces]
  | succ count ih =>
      rw [pieces, List.flatten_cons, ih, Nat.mul_succ, Nat.add_comm, List.take_add]

theorem pieces_append {parts : List (List α)} (h : ∀ part ∈ parts, part.length = size) (count : Nat)
    (rest : List α) :
    pieces size (parts.length + count) (parts.flatten ++ rest) = parts ++ pieces size count rest := by
  induction parts with
  | nil => simp
  | cons part parts ih =>
      have hp : part.length = size := h part (by simp)
      have ih := ih fun part hm => h part (by simp [hm])
      rw [List.length_cons, Nat.add_right_comm, pieces, List.flatten_cons, List.append_assoc,
        List.take_left' hp, List.drop_left' hp, ih, List.cons_append]

theorem flatten_length {parts : List (List α)} (h : ∀ part ∈ parts, part.length = size) :
    parts.flatten.length = parts.length * size := by
  induction parts with
  | nil => simp
  | cons part parts ih =>
      have ih := ih fun part hm => h part (by simp [hm])
      rw [List.flatten_cons, List.length_append, ih, h part (by simp), List.length_cons,
        Nat.succ_mul, Nat.add_comm]

theorem flatten_getElem? (hpos : 0 < size) {parts : List (List α)}
    (h : ∀ part ∈ parts, part.length = size) (i : Nat) :
    parts.flatten[i]? = parts[i / size]?.bind fun part => part[i % size]? := by
  induction parts generalizing i with
  | nil => simp
  | cons part rest ih =>
      have hpart : part.length = size := h part (by simp)
      rw [List.flatten_cons]
      rcases Nat.lt_or_ge i size with hlt | hge
      · rw [List.getElem?_append_left (hpart ▸ hlt), Nat.div_eq_of_lt hlt, Nat.mod_eq_of_lt hlt]
        rfl
      · obtain ⟨j, rfl⟩ := Nat.exists_eq_add_of_le hge
        rw [List.getElem?_append_right (by omega), hpart, Nat.add_sub_cancel_left, Nat.add_comm size,
          Nat.add_div_right j hpos, Nat.add_mod_right, List.getElem?_cons_succ]
        exact ih (fun part hm => h part (by simp [hm])) j

theorem mem_pieces_replicate {count n : Nat} {x : α} {piece : List α}
    (h : piece ∈ pieces size count (List.replicate n x)) : ∃ k, piece = List.replicate k x := by
  induction count generalizing n with
  | zero => simp [pieces] at h
  | succ count ih =>
      rw [pieces, List.take_replicate, List.drop_replicate, List.mem_cons] at h
      rcases h with h | h
      · exact ⟨_, h⟩
      · exact ih h

end Pieces

end Hashboard.Bytes
