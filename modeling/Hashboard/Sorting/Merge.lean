/-!
# Insertion and merging

Sorting asks only whether an item goes before another, `less`, and keeps the order of items neither of
which does. The ways to sort agree as long as the answers do not contradict each other. Some pairs have no
order, such as a number and something that is not a number; then each way comes to an order of its own.
-/

namespace Hashboard.Sorting

variable {α : Type} (less : α → α → Bool)

/-! ## Insertion -/

/-- Puts an item into a descending list, in front of those that it does not go before. -/
def insert (item : α) : List α → List α
  | [] => [item]
  | first :: rest =>
    if less item first then first :: insert item rest else item :: first :: rest

/-- Puts items into a sorted list one by one. Each moves ahead of the greater ones right before it. -/
def insertAll (sorted items : List α) : List α :=
  (items.foldl (fun descending item => insert less item descending) sorted.reverse).reverse

/-! ## Merging -/

/-- The first items of two sorted lists, at most `count`, and how many of them are from the left one. -/
def front : (count : Nat) → (left right : List α) → List α × Nat
  | 0, _, _ => ([], 0)
  | count + 1, left, [] => (left.take (count + 1), min (count + 1) left.length)
  | count + 1, [], right => (right.take (count + 1), 0)
  | count + 1, l :: left, r :: right =>
    if less r l then
      let (items, fromLeft) := front count (l :: left) right
      (r :: items, fromLeft)
    else
      let (items, fromLeft) := front count left (r :: right)
      (l :: items, fromLeft + 1)

/-- The last items of two sorted lists, at most `count`, and how many of them are from the right one. -/
def back (count : Nat) (left right : List α) : List α × Nat :=
  let (items, fromRight) := front (fun a b => less b a) count right.reverse left.reverse
  (items.reverse, fromRight)

/-- Merges two sorted lists, from the end where the shorter one is. -/
def merge (left right : List α) : List α :=
  let count := left.length + right.length
  if left.length ≤ right.length then (front less count left right).1 else (back less count left right).1

/-- Merges two sorted lists from both ends at once, half of the items from each; the right list may be
longer by one. None if an item is left out or taken twice, as the answers of `less` contradict each
other. -/
def mergeEnds? (left right : List α) : Option (List α) :=
  let half := left.length
  let (low, fromLeft) := front less half left right
  let (high, fromRight) := back less half left right
  let middle := (left.take fromRight).drop fromLeft ++
    (right.take (right.length - fromRight)).drop (half - fromLeft)
  let merged := low ++ middle ++ high
  if merged.length = left.length + right.length then some merged else none

end Hashboard.Sorting
