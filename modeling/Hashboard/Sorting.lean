import Hashboard.Sorting.Run

/-!
# Sorting

Up to twenty items are sorted by insertion. Longer lists are sorted in runs, and pieces of a list by
partition around a pivot. There is no result if comparisons are found to contradict each other.
-/

namespace Hashboard

namespace Sorting

variable {α : Type} (less : α → α → Bool)

/-! ## Sorting at once -/

/-- Sorts a list in runs; a piece that is not in order is sorted as soon as it is cut. -/
def byRuns? (items : List α) : Option (List α) := do
  let total := items.length
  let runs := Run.cut less (Run.enough total) smallLength total items
  let runs ← runs.mapM fun r => return ⟨← r.sorted? (small? less), true⟩
  Run.mergeAll? less (small? less) runs

/-! ## Partition -/

def median {β : Type} (less : β → β → Bool) (a b c : β) : β :=
  if less a b == less a c then
    if less b c == less a b then b else c
  else a

/-- The place of the item that is taken for the middle one of the `8 * step` items that begin at a place:
the median of three, each of which is found in the same way if there are many items. -/
def medianPlace (less : Nat → Nat → Bool) (start step : Nat) : Nat :=
  let find (start : Nat) :=
    if h : 8 ≤ step then medianPlace less start (step / 8) else start
  median less (find start) (find (start + 4 * step)) (find (start + 7 * step))
termination_by step
decreasing_by omega

def pivotPlace (items : Array α) : Nat :=
  medianPlace (fun i j => items[i]?.any fun a => items[j]?.any (less a ·)) 0 (items.size / 8)

/-- Sorts a list by partition. Items that equal the pivot are set apart if the pivot is the least item,
or does not come after `bound`, which none of the items goes before. After `limit` partitions the parts
are sorted in runs. -/
def byPartition? : (limit : Nat) → (bound : Option α) → List α → Option (List α)
  | limit, bound, items =>
    if items.length ≤ smallLength then
      small? less items
    else
      match limit, items.splitAt (pivotPlace less items.toArray) with
      | 0, _ | _, (_, []) => byRuns? less items
      | limit + 1, (before, pivot :: after) => do
        let lower := (before ++ after).filter (less · pivot)
        if lower.isEmpty || bound.any (!less · pivot) then
          let greater := less pivot
          let equal := before.filter (!greater ·) ++ pivot :: after.filter (!greater ·)
          return equal ++ (← byPartition? limit none ((before ++ after).filter greater))
        else
          let rest := before.filter (!less · pivot) ++ pivot :: after.filter (!less · pivot)
          return (← byPartition? limit bound lower) ++ (← byPartition? limit (some pivot) rest)

def piece? (items : List α) : Option (List α) :=
  byPartition? less (2 * items.length.log2) none items

end Sorting

/-! ## Sorting any list -/

open Sorting

/-- Sorts a list; items neither of which goes before the other keep their order. -/
def sort? {α : Type} (less : α → α → Bool) (items : List α) : Option (List α) :=
  let total := items.length
  if total ≤ 20 then
    some (insertAll less [] items)
  else if total ≤ 2 * smallLength then
    byRuns? less items
  else
    let enough := Run.enough total
    Run.mergeAll? less (piece? less) (Run.cut less enough enough total items)

end Hashboard
