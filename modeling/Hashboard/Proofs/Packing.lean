import Mathlib.Data.List.Induction
import Hashboard.Buffers

/-!
# Packing

What the transmit buffer holds can be told from the calls: the chunks that were accepted since it was last
cleared, in order, and no-op bytes behind them. A chunk is accepted if it fits behind these, and once the buffer
is padded nothing fits any more. So no byte of an earlier transaction is ever sent again, and no write and no
mark leaves the buffer (`packed`).
-/

namespace Hashboard.Buffers

/-! ## Writing in place -/

theorem overwrite_toList {bytes : Array UInt8} {front old behind chunk : List UInt8}
    (h : bytes.toList = front ++ old ++ behind) (hlength : old.length = chunk.length) :
    (overwrite bytes front.length chunk).toList = front ++ chunk ++ behind := by
  induction chunk generalizing bytes front old with
  | nil =>
      rw [List.length_nil, List.length_eq_zero_iff] at hlength
      rw [overwrite, h, hlength]
  | cons byte chunk ih =>
      -- the byte that is written becomes the last one of the front
      obtain ⟨first, old, rfl⟩ := List.exists_cons_of_length_eq_add_one hlength
      have hset : (bytes.setIfInBounds front.length byte).toList = front ++ [byte] ++ old ++ behind := by
        simp [h]
      have hrest := ih hset (Nat.succ.inj hlength)
      rw [List.length_append, List.length_singleton] at hrest
      rw [overwrite, hrest, List.append_assoc front, List.singleton_append]

/-! ## What the buffers hold -/

/-- These bytes, and no-op bytes behind them up to the length. -/
def filledUp (length : Nat) (content : List UInt8) : List UInt8 :=
  content ++ List.replicate (length - content.length) Wire.nop

/-- How long a chunk may be to be accepted behind these bytes. -/
def room (length : Nat) (full : Bool) (content : List UInt8) : Nat :=
  if full then 0 else length - content.length

/-- The buffers hold these bytes, and no-op bytes behind them. The mark stands between the two, or at the end if the
buffers count as full. -/
structure Holds (b : Buffers) (length : Nat) (full : Bool) (content : List UInt8) : Prop where
  fits : content.length ≤ length
  bytes : b.bytes.toList = filledUp length content
  filled : b.filled = if full then length else content.length

variable {b : Buffers} {length : Nat} {full : Bool} {content chunk : List UInt8}

theorem filledUp_length (h : content.length ≤ length) : (filledUp length content).length = length := by
  rw [filledUp, List.length_append, List.length_replicate, Nat.add_sub_cancel' h]

theorem filledUp_append (h : chunk.length ≤ length - content.length) :
    filledUp length content = content ++ List.replicate chunk.length Wire.nop ++
      List.replicate (length - (content ++ chunk).length) Wire.nop := by
  rw [filledUp, List.append_assoc, List.replicate_append_replicate, List.length_append, ← Nat.sub_sub,
    Nat.add_sub_cancel' h]

theorem filledUp_filler {count : Nat} (h : count ≤ length - content.length) :
    filledUp length (content ++ List.replicate count Wire.nop) = filledUp length content := by
  have hlength : (List.replicate count Wire.nop).length = count := List.length_replicate
  have happend := filledUp_append (hlength.symm ▸ h)
  rw [hlength] at happend
  exact happend.symm

theorem room_le : room length full content ≤ length - content.length := by
  cases full with
  | false => exact Nat.le_refl _
  | true => exact Nat.zero_le _

theorem holds_empty (length : Nat) : (empty length).Holds length false [] :=
  ⟨Nat.zero_le _, by simp [empty, filledUp], rfl⟩

namespace Holds

theorem length_eq (h : b.Holds length full content) : b.length = length := by
  rw [Buffers.length, ← Array.length_toList, h.bytes, filledUp_length h.fits]

theorem filled_le (h : b.Holds length full content) : b.filled ≤ length := by
  rw [h.filled]
  cases full with
  | false => exact h.fits
  | true => exact Nat.le_refl _

theorem room_eq (h : b.Holds length full content) : length - b.filled = room length full content := by
  rw [h.filled, room]
  cases full with
  | false => rfl
  | true => exact Nat.sub_self _

theorem remaining (h : b.Holds length full content) :
    b.remaining? = some (room length full content) := by
  rw [remaining?, h.length_eq, if_pos h.filled_le, h.room_eq]

/-- A chunk that fits is written behind what the buffers hold. -/
theorem overwrite (h : b.Holds length full content) (hfit : chunk.length ≤ room length full content) :
    ∃ bytes, overwrite? b.bytes b.filled chunk = some bytes ∧
      bytes.toList = filledUp length (content ++ chunk) := by
  have hinside : b.filled + chunk.length ≤ b.bytes.size := by
    rw [← h.room_eq] at hfit
    have hfilled := h.filled_le
    have hsize : b.bytes.size = length := h.length_eq
    omega
  refine ⟨_, if_pos hinside, ?_⟩
  cases full with
  | false =>
      rw [show b.filled = content.length from h.filled]
      exact overwrite_toList (h.bytes.trans (filledUp_append hfit)) List.length_replicate
  | true =>
      -- only an empty chunk is left, and the mark at the end is still in the buffer
      have hnil : chunk = [] := List.eq_nil_of_length_eq_zero (Nat.le_zero.mp hfit)
      rw [hnil, List.append_nil]
      exact h.bytes

/-! ## The operations -/

theorem emit_of_le (h : b.Holds length full content) (hfit : chunk.length ≤ room length full content) :
    ∃ b', b.emit? chunk = some (true, b') ∧ b'.Holds length full (content ++ chunk) := by
  obtain ⟨bytes, hwrite, hbytes⟩ := h.overwrite hfit
  refine ⟨{ b with bytes, filled := b.filled + chunk.length }, ?_, ?_, hbytes, ?_⟩
  · rw [emit?, h.remaining, Option.bind_some, if_neg (Nat.not_lt.mpr hfit), hwrite, Option.map_some]
  · have hroom := Nat.le_trans hfit room_le
    have hfits := h.fits
    rw [List.length_append]
    omega
  · cases full with
    | false => rw [List.length_append, ← show b.filled = content.length from h.filled]; rfl
    | true => rw [Nat.le_zero.mp hfit, Nat.add_zero, h.filled]; rfl

theorem emit_of_lt (h : b.Holds length full content) (hlong : room length full content < chunk.length) :
    b.emit? chunk = some (false, b) := by
  rw [emit?, h.remaining, Option.bind_some, if_pos hlong]

/-- Padding writes what is there already, and moves the mark. -/
theorem pad (h : b.Holds length full content) :
    ∃ b', b.pad? = some b' ∧ b'.Holds length true content ∧ b'.rx = b.rx := by
  have hfiller : (List.replicate (room length full content) Wire.nop).length ≤ room length full content :=
    Nat.le_of_eq List.length_replicate
  obtain ⟨bytes, hwrite, hbytes⟩ := h.overwrite hfiller
  refine ⟨{ b with bytes, filled := b.length }, ?_, ⟨h.fits, ?_, h.length_eq⟩, rfl⟩
  · rw [pad?, h.remaining, Option.bind_some, hwrite, Option.map_some]
  · exact hbytes.trans (filledUp_filler room_le)

theorem clear (h : b.Holds length full content) : b.clear.Holds length false [] := by
  rw [Buffers.clear, h.length_eq]
  exact holds_empty length

theorem transact {τ : Type} [Transport τ] (h : b.Holds length full content) (bus : τ) :
    let answered := Transport.transact bus (filledUp length content) b.rx
    ∃ b', b.transact? bus = some (answered.1, b', answered.2) ∧ b'.Holds length true content := by
  intro answered
  obtain ⟨b', hpad, hb', hrx⟩ := h.pad
  refine ⟨{ b' with rx := answered.1.rx }, ?_, ⟨hb'.fits, hb'.bytes, hb'.filled⟩⟩
  rw [transact?, hpad, Option.map_some, hb'.bytes, hrx]

theorem emit (h : b.Holds length full content) (hfit : chunk.length ≤ room length full content) :
    (b.emit chunk).1 = true ∧ (b.emit chunk).2.Holds length full (content ++ chunk) := by
  obtain ⟨b', hemit, hb'⟩ := h.emit_of_le hfit
  rw [Buffers.emit, hemit]
  exact ⟨rfl, hb'⟩

theorem refuse (h : b.Holds length full content) (hlong : room length full content < chunk.length) :
    b.emit chunk = (false, b) := by
  rw [Buffers.emit, h.emit_of_lt hlong]
  rfl

theorem padded (h : b.Holds length full content) : b.pad.Holds length true content := by
  obtain ⟨b', hpad, hb', -⟩ := h.pad
  rw [Buffers.pad, hpad]
  exact hb'

theorem tx (h : b.Holds length full content) : b.tx = filledUp length content :=
  h.padded.bytes

end Holds

/-! ## All calls -/

/-- Each exchange may be with another bus. -/
inductive Call (τ : Type) where
  | emit (chunk : List UInt8)
  | pad
  | clear
  | transact (bus : τ)

inductive Outcome where
  | accepted (chunk : List UInt8)
  | refused (chunk : List UInt8)
  | padded
  | cleared
  | transacted (answer : BusAnswer)

section Calls

variable {τ : Type} [Transport τ]

/-- None if a write or the mark leaves the buffer. -/
def call? (b : Buffers) : Call τ → Option (Outcome × Buffers)
  | .emit chunk => (b.emit? chunk).map fun (ok, b) => (if ok then .accepted chunk else .refused chunk, b)
  | .pad => b.pad?.map fun b => (.padded, b)
  | .clear => some (.cleared, b.clear)
  | .transact bus => (b.transact? bus).map fun (answer, b, _) => (.transacted answer, b)

/-- What came of some calls, in order, and the buffers behind the last one. -/
def callAll? (b : Buffers) : List (Call τ) → Option (List Outcome × Buffers)
  | [] => some ([], b)
  | call :: calls =>
    (b.call? call).bind fun (outcome, b) =>
      (b.callAll? calls).map fun (log, b) => (outcome :: log, b)

theorem callAll?_concat (calls : List (Call τ)) (call : Call τ) :
    b.callAll? (calls ++ [call]) = (b.callAll? calls).bind fun (log, b) =>
      (b.call? call).map fun (outcome, b) => (log ++ [outcome], b) := by
  induction calls generalizing b with
  | nil => cases h : b.call? call <;> simp [callAll?, h]
  | cons first calls ih =>
      rw [List.cons_append, callAll?, callAll?]
      cases b.call? first with
      | none => rfl
      | some step =>
          simp only [Option.bind_some, ih]
          cases step.2.callAll? calls with
          | none => rfl
          | some done => cases h : done.2.call? call <;> simp [h]

end Calls

/-! ## What the log tells -/

namespace Outcome

def isCleared : Outcome → Bool
  | cleared => true
  | _ => false

def pads : Outcome → Bool
  | padded | transacted _ => true
  | _ => false

def accepted? : Outcome → Option (List UInt8)
  | accepted chunk => some chunk
  | _ => none

end Outcome

/-- What came of the calls since the buffers were last cleared. -/
def sinceClear (log : List Outcome) : List Outcome :=
  (log.reverse.takeWhile (!·.isCleared)).reverse

/-- The chunks accepted since then. -/
def chunks (log : List Outcome) : List (List UInt8) :=
  (sinceClear log).filterMap Outcome.accepted?

/-- Whether the buffers were padded since then. -/
def isPadded (log : List Outcome) : Bool :=
  (sinceClear log).any Outcome.pads

variable {log : List Outcome} {outcome : Outcome}

theorem sinceClear_concat :
    sinceClear (log ++ [outcome]) = if outcome.isCleared then [] else sinceClear log ++ [outcome] := by
  cases h : outcome.isCleared <;> simp [sinceClear, h]

theorem chunks_concat :
    chunks (log ++ [outcome]) =
      if outcome.isCleared then [] else chunks log ++ outcome.accepted?.toList := by
  cases h : outcome.isCleared with
  | true => simp [chunks, sinceClear_concat, h]
  | false =>
      cases ha : outcome.accepted? <;> simp [chunks, sinceClear_concat, h, ha]

theorem isPadded_concat :
    isPadded (log ++ [outcome]) = if outcome.isCleared then false else isPadded log || outcome.pads := by
  cases h : outcome.isCleared <;> simp [isPadded, sinceClear_concat, h]

/-- The buffers are as the log tells. -/
def Follows (b : Buffers) (length : Nat) (log : List Outcome) : Prop :=
  b.Holds length (isPadded log) (chunks log).flatten

theorem follows_concat :
    b.Follows length (log ++ [outcome]) ↔
      b.Holds length (if outcome.isCleared then false else isPadded log || outcome.pads)
        (if outcome.isCleared then [] else chunks log ++ outcome.accepted?.toList).flatten := by
  rw [Follows, chunks_concat, isPadded_concat]

section Calls

variable {τ : Type} [Transport τ]

theorem Follows.call (h : b.Follows length log) (call : Call τ) :
    ∃ outcome b', b.call? call = some (outcome, b') ∧ b'.Follows length (log ++ [outcome]) := by
  unfold Follows at h
  cases call with
  | emit chunk =>
      rcases Nat.lt_or_ge (room length (isPadded log) (chunks log).flatten) chunk.length with hlong | hfit
      · refine ⟨.refused chunk, b, by rw [call?, h.emit_of_lt hlong]; rfl, ?_⟩
        simpa [follows_concat, Outcome.isCleared, Outcome.pads, Outcome.accepted?] using h
      · obtain ⟨b', hemit, hb'⟩ := h.emit_of_le hfit
        refine ⟨.accepted chunk, b', by rw [call?, hemit]; rfl, ?_⟩
        simpa [follows_concat, Outcome.isCleared, Outcome.pads, Outcome.accepted?] using hb'
  | pad =>
      obtain ⟨b', hpad, hb', -⟩ := h.pad
      refine ⟨.padded, b', by rw [call?, hpad]; rfl, ?_⟩
      simpa [follows_concat, Outcome.isCleared, Outcome.pads, Outcome.accepted?] using hb'
  | clear =>
      refine ⟨.cleared, b.clear, rfl, ?_⟩
      simpa [follows_concat, Outcome.isCleared] using h.clear
  | transact bus =>
      obtain ⟨b', htransact, hb'⟩ := h.transact bus
      refine ⟨.transacted _, b', by rw [call?, htransact]; rfl, ?_⟩
      simpa [follows_concat, Outcome.isCleared, Outcome.pads, Outcome.accepted?] using hb'

theorem follows_callAll (length : Nat) (calls : List (Call τ)) :
    ∃ log b, (empty length).callAll? calls = some (log, b) ∧ b.Follows length log := by
  induction calls using List.reverseRecOn with
  | nil => exact ⟨[], empty length, rfl, holds_empty length⟩
  | append_singleton calls call ih =>
      obtain ⟨log, b, hcalls, hb⟩ := ih
      obtain ⟨outcome, b', hcall, hb'⟩ := hb.call call
      refine ⟨log ++ [outcome], b', ?_, hb'⟩
      simp only [callAll?_concat, hcalls, Option.bind_some, hcall, Option.map_some]

/-- Whatever is called, the mark and all writes stay in the buffer. It holds the chunks accepted since it was last
cleared, and no-op bytes behind them, and this is what an exchange sends. A chunk is accepted if and only if it is
no longer than what remains, which is nothing once the buffer is padded; a refused one changes nothing. -/
theorem packed (length : Nat) (calls : List (Call τ)) :
    ∃ log b, (empty length).callAll? calls = some (log, b) ∧
      let content := (chunks log).flatten
      let filler := List.replicate (length - content.length) Wire.nop
      b.length = length ∧
      b.filled ≤ length ∧
      b.remaining? = some (length - b.filled) ∧
      content.length ≤ length ∧
      b.filled = (if isPadded log then length else content.length) ∧
      b.bytes.toList = content ++ filler ∧
      (∀ chunk, ∃ accepted b', b.emit? chunk = some (accepted, b') ∧
        (accepted = true ↔ chunk.length ≤ length - b.filled) ∧ (accepted = false → b' = b)) ∧
      (∀ bus : τ, let answered := Transport.transact bus (content ++ filler) b.rx
        ∃ b', b.transact? bus = some (answered.1, b', answered.2)) ∧
      (isPadded log = true → ∀ chunk, chunk ≠ [] → b.emit? chunk = some (false, b)) := by
  obtain ⟨log, b, hcalls, hb⟩ := follows_callAll length calls
  refine ⟨log, b, hcalls, hb.length_eq, hb.filled_le, ?_, hb.fits, hb.filled, hb.bytes, ?_, ?_, ?_⟩
  · rw [hb.room_eq]
    exact hb.remaining
  · intro chunk
    rw [hb.room_eq]
    rcases Nat.lt_or_ge (room length (isPadded log) (chunks log).flatten) chunk.length with hlong | hfit
    · exact ⟨false, b, hb.emit_of_lt hlong, by simpa using hlong, fun _ => rfl⟩
    · obtain ⟨b', hemit, -⟩ := hb.emit_of_le hfit
      exact ⟨true, b', hemit, by simpa using hfit, nofun⟩
  · intro bus
    obtain ⟨b', htransact, -⟩ := hb.transact bus
    exact ⟨b', htransact⟩
  · intro hpadded chunk hchunk
    refine hb.emit_of_lt ?_
    rw [room, hpadded, if_pos rfl]
    exact List.length_pos_iff.mpr hchunk

end Calls

end Hashboard.Buffers
