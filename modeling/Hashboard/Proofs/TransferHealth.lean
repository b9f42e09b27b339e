import Mathlib.Data.List.Induction
import Hashboard.TransferHealth

/-!
# Reports of transfer health

How many transfers have failed in a row can be told from the results alone. The counter follows that number as
far as it goes, and the log follows it all the way: a run of failures is warned of when it has become long,
however much longer it gets, and its end is reported. So warnings and recoveries take turns.
-/

namespace Hashboard.TransferHealth

variable {h : TransferHealth} {results : List Bool} {ok : Bool} {device : String}

/-! ## Runs of failures -/

/-- How many results in a row, up to the last one, are failures. -/
def failureRun (results : List Bool) : Nat :=
  (results.reverse.takeWhile (!·)).length

@[simp] theorem failureRun_concat :
    failureRun (results ++ [ok]) = if ok then 0 else failureRun results + 1 := by
  cases ok <;> simp [failureRun]

theorem failureRun_take {j : Nat} (hj : results[j]? = some ok) :
    failureRun (results.take (j + 1)) = if ok then 0 else failureRun (results.take j) + 1 := by
  rw [List.take_add_one, hj, Option.toList_some, failureRun_concat]

/-! ## All calls -/

/-- The health after some calls, and what each of them reports. -/
def recordAll (h : TransferHealth) : List Bool → TransferHealth × List (Option HealthNotice)
  | [] => (h, [])
  | ok :: rest =>
    let (h, notice) := h.record ok
    let (h, notices) := recordAll h rest
    (h, notice :: notices)

/-- The lines that the calls log, in order. -/
def lines (device : String) (results : List Bool) : List Log.Record :=
  ((good.recordAll results).2.filterMap id).map (HealthNotice.record device)

theorem recordAll_concat :
    h.recordAll (results ++ [ok]) =
      (((h.recordAll results).1.record ok).1,
        (h.recordAll results).2 ++ [((h.recordAll results).1.record ok).2]) := by
  induction results generalizing h with
  | nil => rfl
  | cons first rest ih => simp [recordAll, ih]

theorem recordAll_getElem? {j : Nat} :
    (h.recordAll results).2[j]? =
      results[j]?.map fun ok => ((h.recordAll (results.take j)).1.record ok).2 := by
  induction results generalizing h j with
  | nil => simp [recordAll]
  | cons first rest ih =>
      cases j with
      | zero => simp [recordAll]
      | succ j => simp [recordAll, ih]

theorem lines_concat :
    lines device (results ++ [ok]) = lines device results ++
      ((good.recordAll results).1.record ok).2.toList.map (HealthNotice.record device) := by
  rw [lines, recordAll_concat]
  cases ((good.recordAll results).1.record ok).2 <;> simp [lines]

/-! ## The counter -/

theorem failures_recordAll (results : List Bool) :
    (good.recordAll results).1.failures = min (failureRun results) maxFailures := by
  induction results using List.reverseRecOn with
  | nil => rfl
  | append_singleton results ok ih =>
      rw [recordAll_concat, failureRun_concat]
      cases ok with
      | true => rfl
      | false =>
          simp only [record, ih, Bool.false_eq_true, if_false]
          omega

/-- Although the counter stops, it tells at each call whether the run of failures has just become long, and
whether a long one ends. -/
theorem record_eq (hh : h.failures = min (failureRun results) maxFailures) :
    (h.record ok).2 = match ok with
      | true => if warnThreshold ≤ failureRun results then some (.recovered h.failures) else none
      | false => if failureRun results + 1 = warnThreshold then some (.failing warnThreshold) else none := by
  cases ok with
  | true =>
      have hlong : warnThreshold ≤ h.failures ↔ warnThreshold ≤ failureRun results := by
        rw [hh, warnThreshold, maxFailures]
        omega
      simp only [record, if_true, hlong]
  | false =>
      have hfirst : min (h.failures + 1) maxFailures = warnThreshold ↔
          failureRun results + 1 = warnThreshold := by
        rw [hh, warnThreshold, maxFailures]
        omega
      simp only [record, Bool.false_eq_true, if_false, hfirst]
      split
      · rename_i hnow
        rw [hfirst.mpr hnow]
      · rfl

/-! ## The log -/

/-- Warnings and other lines take turns, a warning first. -/
def Alternate (lines : List Log.Record) : Prop :=
  ∀ k line, lines[k]? = some line → line.level = if k % 2 = 0 then .warn else .info

theorem Alternate.concat {lines : List Log.Record} {line : Log.Record} (h : Alternate lines)
    (hline : line.level = if lines.length % 2 = 0 then .warn else .info) : Alternate (lines ++ [line]) := by
  intro k line' hk
  rcases Nat.lt_trichotomy k lines.length with hlt | rfl | hgt
  · rw [List.getElem?_append_left hlt] at hk
    exact h k line' hk
  · rw [List.getElem?_concat_length] at hk
    cases hk
    exact hline
  · have hnone : (lines ++ [line])[k]? = none := List.getElem?_eq_none (by simpa using Nat.succ_le_of_lt hgt)
    rw [hnone] at hk
    cases hk

/-- A long run of failures is one whose warning has no recovery yet. -/
theorem lines_alternate (device : String) (results : List Bool) :
    (lines device results).length % 2 = (if warnThreshold ≤ failureRun results then 1 else 0) ∧
      Alternate (lines device results) := by
  induction results using List.reverseRecOn with
  | nil => exact ⟨rfl, nofun⟩
  | append_singleton results ok ih =>
      obtain ⟨hparity, halternate⟩ := ih
      rw [lines_concat, record_eq (failures_recordAll results), failureRun_concat]
      cases ok with
      | true =>
          by_cases hlong : warnThreshold ≤ failureRun results
          · rw [if_pos hlong] at hparity ⊢
            refine ⟨?_, halternate.concat (by rw [hparity]; rfl)⟩
            simp [warnThreshold]
            omega
          · rw [if_neg hlong] at hparity ⊢
            simpa [warnThreshold] using ⟨hparity, halternate⟩
      | false =>
          by_cases hnow : failureRun results + 1 = warnThreshold
          · have hshort : ¬ warnThreshold ≤ failureRun results := by omega
            rw [if_neg hshort] at hparity
            rw [if_pos hnow]
            refine ⟨?_, halternate.concat (by rw [hparity]; rfl)⟩
            simp [hnow]
            omega
          · have hsame : warnThreshold ≤ failureRun results + 1 ↔ warnThreshold ≤ failureRun results := by omega
            rw [if_neg hnow]
            simpa [hsame] using ⟨hparity, halternate⟩

/-- The counter and the log of any calls, told from their results. -/
theorem health_reported (device : String) (results : List Bool) :
    (good.recordAll results).1.failures = min (failureRun results) 4294967295 ∧
      (∀ j, (good.recordAll results).2[j]?.map (Option.map (HealthNotice.record device)) =
        results[j]?.map fun
          | true =>
            let ended := min (failureRun (results.take j)) 4294967295
            if 100 ≤ failureRun (results.take j) then
              some ⟨.info, "DEVICE", s!"{device}: bus recovered after {ended} failed transfers"⟩
            else none
          | false =>
            if failureRun (results.take (j + 1)) = 100 then
              some ⟨.warn, "DEVICE", s!"{device}: {100} consecutive transfer failures"⟩
            else none) ∧
      Alternate (lines device results) := by
  refine ⟨failures_recordAll results, ?_, (lines_alternate device results).2⟩
  intro j
  rw [recordAll_getElem?, Option.map_map]
  cases hj : results[j]? with
  | none => rfl
  | some ok =>
      have hcounter := failures_recordAll (results.take j)
      rw [Option.map_some, Option.map_some, Function.comp_apply, record_eq hcounter, failureRun_take hj]
      cases ok with
      | true =>
          rw [hcounter]
          by_cases hlong : 100 ≤ failureRun (results.take j)
          · simp only [warnThreshold, hlong, if_true]
            rfl
          · simp only [warnThreshold, hlong, if_false]
            rfl
      | false =>
          by_cases hnow : failureRun (results.take j) + 1 = 100
          · simp only [warnThreshold, hnow, Bool.false_eq_true, if_true, if_false]
            rfl
          · simp only [warnThreshold, hnow, Bool.false_eq_true, if_false]
            rfl

end Hashboard.TransferHealth
