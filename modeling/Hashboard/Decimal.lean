/-!
# Decimal numbers

A decimal is a sign, a whole number of units, and the power of ten that a unit stands for. It is written
either positionally, with all its places, or in scientific notation, with one digit in front of the point.
-/

namespace Hashboard

/-- The number `significand · 10 ^ exponent`, negated if `negative`. -/
structure Decimal where
  negative : Bool
  significand : Nat
  exponent : Int
  deriving DecidableEq, Repr

namespace Decimal

/-- The decimal digits of a number, without leading zeros; none for zero. -/
def digitsOf (n : Nat) : List Char :=
  if n = 0 then [] else Nat.toDigits 10 n

def sign (negative : Bool) : String :=
  if negative then "-" else ""

/-! ## Fixed places -/

/-- The text of `n / 10 ^ places`, with that many places behind the point. -/
def fixedText (places n : Nat) : String :=
  let digits := Nat.toDigits 10 n
  let digits := List.replicate (places + 1 - digits.length) '0' ++ digits
  let whole := digits.length - places
  if places = 0 then String.ofList digits
  else String.ofList (digits.take whole ++ '.' :: digits.drop whole)

/-! ## Layout -/

/-- Which numbers are written positionally: those whose first digit stands for a power of ten between
these two. -/
structure Layout where
  least : Int
  greatest : Int
  deriving DecidableEq, Repr

/-- Digits in positional notation, the first of which stands for `10 ^ lead`. There is a digit on both
sides of the point. -/
def positional (digits : List Char) (lead : Int) : String :=
  if lead < 0 then
    "0." ++ String.ofList (List.replicate (-lead - 1).toNat '0' ++ digits)
  else
    let whole := lead.toNat + 1
    let padded := digits ++ List.replicate (whole - digits.length) '0'
    let rest := padded.drop whole
    String.ofList (padded.take whole) ++ "." ++ String.ofList (if rest.isEmpty then ['0'] else rest)

/-- Digits in scientific notation, the first of which stands for `10 ^ lead`. A single digit has no
point. -/
def scientific (digits : List Char) (lead : Int) : String :=
  let fraction := if digits.length ≤ 1 then [] else '.' :: digits.drop 1
  let exponent := if lead < 0 then s!"{lead}" else s!"+{lead}"
  String.ofList (digits.take 1 ++ fraction) ++ "e" ++ exponent

/-- The text of a decimal whose last digit is not zero. -/
def text (layout : Layout) (d : Decimal) : String :=
  let digits := digitsOf d.significand
  let lead := d.exponent + digits.length - 1
  sign d.negative ++
    if d.significand = 0 then "0.0"
    else if layout.least ≤ lead ∧ lead ≤ layout.greatest then positional digits lead
    else scientific digits lead

/-- Makes the last digit one that is not zero. -/
def trim (d : Decimal) : Decimal :=
  if d.significand = 0 then { d with exponent := 0 }
  else if d.significand % 10 = 0 then trim ⟨d.negative, d.significand / 10, d.exponent + 1⟩
  else d
termination_by d.significand
decreasing_by omega

end Decimal

end Hashboard
