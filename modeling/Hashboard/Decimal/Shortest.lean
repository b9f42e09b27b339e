import Hashboard.Decimal.Binary

/-!
# Shortest decimals

The shortest decimal of a floating-point number is the one with the fewest digits among those that read
back as the same number; of several, the one nearest to the number, and of two equally near ones the one
with the even last digit.

The decimals that read back are those between the number's two midpoints with its neighbours, the ends
included if the significand is even. The multiples of a power of ten form a grid. On each grid only the
two points around the number need a look, and the coarsest grid with a point between the ends wins.
-/

namespace Hashboard

/-- A positive number and the two ends of the numbers that round to it, in units of `unit`. -/
structure RoundingInterval where
  low : Nat
  value : Nat
  high : Nat
  unit : Nat
  /-- Whether the ends round to the number, too. -/
  closed : Bool
  deriving DecidableEq, Repr

namespace RoundingInterval

/-- The interval of the number `significand · 2 ^ exponent`. A number at the low end of its binade is
twice as near to the neighbour below. -/
def ofFinite (f : BinaryFormat) (significand : Nat) (exponent : Int) : RoundingInterval :=
  let below := if significand = f.hidden ∧ f.leastExponent < exponent then 1 else 2
  let scale := Nat.pow 2 (exponent - 2).toNat
  { low := (4 * significand - below) * scale
    value := 4 * significand * scale
    high := (4 * significand + 2) * scale
    unit := Nat.pow 2 (2 - exponent).toNat
    closed := significand % 2 = 0 }

/-- The interval in units of `unit · 10 ^ k`. -/
def onGrid (r : RoundingInterval) (k : Int) : RoundingInterval :=
  let finer := Nat.pow 10 (-k).toNat
  { r with
    low := r.low * finer
    value := r.value * finer
    high := r.high * finer
    unit := r.unit * Nat.pow 10 k.toNat }

def holds (r : RoundingInterval) (n : Nat) : Bool :=
  let point := n * r.unit
  if r.closed then r.low ≤ point ∧ point ≤ r.high else r.low < point ∧ point < r.high

/-- The whole number of units in the interval that is nearest to the value, if it is one of the two
around the value. -/
def nearest? (r : RoundingInterval) : Option Nat :=
  let under := r.value / r.unit
  let beyond := under + 1
  match r.holds under, r.holds beyond with
  | true, true => some (Binary.roundDiv r.value r.unit)
  | true, false => some under
  | false, true => some beyond
  | false, false => none

/-- Looks at the grids of `10 ^ k` and finer ones; takes the last one if the others have no point in the
interval. -/
def search (r : RoundingInterval) : (finer : Nat) → (k : Int) → Nat × Int
  | 0, k => ((r.onGrid k).value / (r.onGrid k).unit, k)
  | finer + 1, k =>
    match (r.onGrid k).nearest? with
    | some n => (n, k)
    | none => search r finer (k - 1)

end RoundingInterval

namespace Decimal

def shortest (f : BinaryFormat) (negative : Bool) (significand : Nat) (exponent : Int) : Decimal :=
  if significand = 0 then
    ⟨negative, 0, 0⟩
  else
    let r := RoundingInterval.ofFinite f significand exponent
    let coarsest := (digitsOf (r.value / r.unit)).length
    let (n, k) := r.search (coarsest + f.leastExponent.natAbs) coarsest
    trim ⟨negative, n, k⟩

/-- The shortest text of a number: none if it is not finite. -/
def shortestText? (f : BinaryFormat) (layout : Layout) : Binary → Option String
  | .finite negative significand exponent => some ((shortest f negative significand exponent).text layout)
  | .nan | .infinite _ => none

end Decimal

end Hashboard
