import Hashboard.Decimal

/-!
# Binary floating point

The formats of floating-point numbers and what their bits stand for, and the rounding of such a number to
a fixed count of decimal places.
-/

namespace Hashboard

/-- A format of floating-point numbers: a sign, an exponent field and a fraction field. -/
structure BinaryFormat where
  fractionBits : Nat
  exponentBits : Nat
  deriving DecidableEq, Repr

namespace BinaryFormat

def double : BinaryFormat := ⟨52, 11⟩

def single : BinaryFormat := ⟨23, 8⟩

/-- The least significand of a number that is not subnormal. -/
def hidden (f : BinaryFormat) : Nat :=
  Nat.pow 2 f.fractionBits

def fields (f : BinaryFormat) : Nat :=
  Nat.pow 2 f.exponentBits

/-- The power of two that a unit of the smallest numbers stands for. -/
def leastExponent (f : BinaryFormat) : Int :=
  2 - Nat.pow 2 (f.exponentBits - 1) - f.fractionBits

end BinaryFormat

/-- What the bits of a floating-point number stand for. -/
inductive Binary where
  | nan
  | infinite (negative : Bool)
  /-- The number `significand · 2 ^ exponent`. -/
  | finite (negative : Bool) (significand : Nat) (exponent : Int)
  deriving DecidableEq, Repr

namespace Binary

def ofBits (f : BinaryFormat) (bits : Nat) : Binary :=
  let fraction := bits % f.hidden
  let field := bits / f.hidden % f.fields
  let negative := bits / f.hidden / f.fields % 2 = 1
  if field = f.fields - 1 then
    if fraction = 0 then infinite negative else nan
  else if field = 0 then
    finite negative fraction f.leastExponent
  else
    finite negative (f.hidden + fraction) (f.leastExponent + field - 1)

def ofFloat (x : Float) : Binary :=
  ofBits .double x.toBits.toNat

def ofFloat32 (x : Float32) : Binary :=
  ofBits .single x.toBits.toNat

/-- The quotient rounded to the nearest number; of two equally near ones, to the even one. -/
def roundDiv (n d : Nat) : Nat :=
  let q := n / d
  let r := n % d
  if 2 * r < d then q
  else if d < 2 * r then q + 1
  else q + q % 2

/-- The number rounded to the nearest one that has so many binary digits in front of its zeros. -/
def roundDigits (digits n : Nat) : Nat :=
  let unit := Nat.pow 2 (n.log2 + 1 - digits)
  roundDiv n unit * unit

def fixedText (places : Nat) : Binary → String
  | nan => "NaN"
  | infinite negative => Decimal.sign negative ++ "inf"
  | finite negative significand exponent =>
    let scaled := significand * Nat.pow 10 places
    Decimal.sign negative ++
      Decimal.fixedText places
        (roundDiv (scaled * Nat.pow 2 exponent.toNat) (Nat.pow 2 (-exponent).toNat))

end Binary

end Hashboard
