import Hashboard.Decimal.Binary
import Hashboard.Sorting

/-!
# Hash rates

Hash rates are counted in hashes per second. They are shown in the largest unit that they reach.
-/

namespace Hashboard.HashRate

/-- The units of hash rates, largest first. -/
def units : List (Float × String) :=
  [(1e12, "TH/s"), (1e9, "GH/s"), (1e6, "MH/s"), (1e3, "KH/s")]

def text (rate : Float) : String :=
  let (amount, unit) := ((units.find? fun (size, _) => rate ≥ size).map
    fun (size, unit) => (rate / size, unit)).getD (rate, "H/s")
  (Binary.ofFloat amount).fixedText 3 ++ " " ++ unit

/-! ## Samples -/

/-- Samples in ascending order. A sample that is not a number is neither less nor greater than another, so
with such samples there may be no order. -/
def sorted? (samples : List Float) : Option (List Float) :=
  sort? (fun a b => a < b) samples

/-- The middle one of some sorted samples, or the mean of the two middle ones; zero if there are none. -/
def median (sorted : List Float) : Float :=
  let middle := sorted.length / 2
  let upper := sorted.getD middle 0
  if sorted.length % 2 = 0 ∧ 0 < middle then (sorted.getD (middle - 1) 0 + upper) / 2 else upper

/-- The mean of some samples; zero if there are none. -/
def mean (samples : List Float) : Float :=
  if samples.isEmpty then 0 else samples.foldl (· + ·) (-0.0) / samples.length.toFloat

end Hashboard.HashRate
