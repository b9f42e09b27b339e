import Hashboard.Sorting.Merge

/-!
# Sorting a few items

A few items are sorted in two halves. The first items of each half are put in order by a fixed scheme of
comparisons, the others are inserted, and the halves are merged from both ends.
-/

namespace Hashboard.Sorting

variable {α : Type} (less : α → α → Bool)

def two (a b : α) : α × α :=
  if less b a then (b, a) else (a, b)

/-- Puts four items in order with five comparisons: each pair, the two least, the two greatest, and the
two that are left. -/
def four : List α → List α
  | [p, q, r, s] =>
    let (a, b) := two less p q
    let (c, d) := two less r s
    let (least, x, y, greatest) := match less c a, less d b with
      | false, false => (a, b, c, d)
      | false, true => (a, c, d, b)
      | true, false => (c, a, b, d)
      | true, true => (c, a, d, b)
    let (x, y) := two less x y
    [least, x, y, greatest]
  | items => items

/-- Puts eight items in order, four by four. -/
def eight? (items : List α) : Option (List α) :=
  mergeEnds? less (four less (items.take 4)) (four less (items.drop 4))

def half? (total : Nat) (items : List α) : Option (List α) :=
  if 16 ≤ total then
    (eight? less (items.take 8)).map fun begun => insertAll less begun (items.drop 8)
  else if 8 ≤ total then
    some (insertAll less (four less (items.take 4)) (items.drop 4))
  else
    some (insertAll less [] items)

/-- The most items that are sorted this way. -/
def smallLength : Nat := 32

def small? (items : List α) : Option (List α) := do
  let total := items.length
  let (left, right) := items.splitAt (total / 2)
  mergeEnds? less (← half? less total left) (← half? less total right)

end Hashboard.Sorting
