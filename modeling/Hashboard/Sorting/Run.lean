import Hashboard.Sorting.Small

/-!
# Runs

A long list is sorted in runs. Stretches of it that are in order already are taken as they are, if they
are long enough, and the rest is cut into pieces. Neighbours are then merged in the order in which a
balanced tree over the whole list would merge them; pieces that are not sorted yet are only put together,
until they meet a run that is.
-/

namespace Hashboard.Sorting

/-- Some neighbouring items, which may be sorted. -/
structure Run (α : Type) where
  items : List α
  isSorted : Bool

namespace Run

variable {α : Type} (less : α → α → Bool)

/-! ## Cutting a list -/

/-- How long a stretch at the front is, each two neighbours of which are related. -/
def stretch (related : α → α → Bool) : List α → Nat
  | [] => 0
  | [_] => 1
  | a :: b :: rest => if related a b then stretch related (b :: rest) + 1 else 1

/-- The first run, and the items behind it: a stretch in order or strictly in reverse order, if it has
`enough` items, else `piece` items. -/
def next (enough piece : Nat) (items : List α) : Run α × List α :=
  let reversed := match items with
    | a :: b :: _ => less b a
    | _ => false
  let length := stretch (fun a b => less b a == reversed) items
  if enough ≤ length then
    let (found, rest) := items.splitAt (max 1 length)
    (⟨if reversed then found.reverse else found, true⟩, rest)
  else
    let (found, rest) := items.splitAt (max 1 piece)
    (⟨found, false⟩, rest)

/-- Cuts a list into runs; `limit` is at least the length of the list. -/
def cut (enough piece : Nat) : (limit : Nat) → List α → List (Run α)
  | 0, _ | _ + 1, [] => []
  | limit + 1, items =>
    let (run, rest) := next less enough piece items
    run :: cut enough piece limit rest

/-- How long a stretch in order has to be: half of a short list, and about the square root of a long one. -/
def enough (total : Nat) : Nat :=
  if total ≤ 4096 then
    min (total - total / 2) 64
  else
    let bits := (total.log2 + 1) / 2
    (Nat.pow 2 bits + total / Nat.pow 2 bits) / 2

/-! ## Merging neighbours -/

variable (sort? : List α → Option (List α))

def sorted? (r : Run α) : Option (List α) :=
  if r.isSorted then some r.items else sort? r.items

/-- Puts neighbours together; they are merged if one of them is sorted. -/
def join? (left right : Run α) : Option (Run α) := do
  if left.isSorted || right.isSorted then
    return ⟨merge less (← left.sorted? sort?) (← right.sorted? sort?), true⟩
  else
    return ⟨left.items ++ right.items, false⟩

/-- How deep the seam of two neighbours lies in a balanced tree over the whole list: the number of binary
digits that their centres have in common, as fractions of the list. -/
def depth (total start middle stop : Nat) : Nat :=
  let scale := (Nat.pow 2 62 + total - 1) / total
  63 - ((scale * (start + middle)) ^^^ (scale * (middle + stop))).log2

/-- Joins a run to the neighbours in front of it, nearest first, whose seams lie at least as deep. -/
def joinDeeper? (depth : Nat) : List (Run α × Nat) → Run α → Option (List (Run α × Nat) × Run α)
  | [], run => some ([], run)
  | (left, seam) :: waiting, run => do
    if depth ≤ seam then joinDeeper? depth waiting (← left.join? less sort? run)
    else return ((left, seam) :: waiting, run)

/-- Joins the run that begins at `start` to the runs that wait in front of it, each with the depth of the
seam behind it, and to the runs that follow. -/
def joinAll? (total start : Nat) (waiting : List (Run α × Nat)) (run : Run α) :
    List (Run α) → Option (Run α)
  | [] => return (← joinDeeper? less sort? 0 waiting run).2
  | next :: rest => do
    let middle := start + run.items.length
    let seam := depth total start middle (middle + next.items.length)
    let (waiting, run) ← joinDeeper? less sort? seam waiting run
    joinAll? total middle ((run, seam) :: waiting) next rest

def mergeAll? : List (Run α) → Option (List α)
  | [] => some []
  | first :: rest => do
    let total := rest.foldr (fun r sum => r.items.length + sum) first.items.length
    (← joinAll? less sort? total 0 [] first rest).sorted? sort?

end Run

end Hashboard.Sorting
