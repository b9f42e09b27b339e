import Hashboard.Decimal

/-!
# JSON values

A number is kept as it is written, so that reading a document and printing it changes no number. An
object keeps the order of its fields; if a name occurs twice, the last one counts.
-/

namespace Hashboard

inductive Json where
  | null
  | bool (value : Bool)
  | number (text : String)
  | string (text : String)
  | array (items : List Json)
  | object (fields : List (String × Json))
  deriving Repr

namespace Decimal

/-- The number that some digits spell; none unless there is a digit and nothing else. -/
def natOf? (digits : List Char) : Option Nat :=
  if digits.isEmpty ∨ !digits.all Char.isDigit then none
  else some (digits.foldl (fun n c => 10 * n + (c.toNat - '0'.toNat)) 0)

/-- The power of ten behind the letter e, with or without a sign. -/
def exponentOf? : List Char → Option Int
  | '-' :: digits => (natOf? digits).map fun n => -(n : Int)
  | '+' :: digits => (natOf? digits).map Int.ofNat
  | digits => (natOf? digits).map Int.ofNat

/-- Reads what stands behind the digits in front of the point: a fraction and an exponent, or one of
them, or nothing. -/
def ofTail? (negative : Bool) (whole tail : List Char) : Option Decimal := do
  let (fraction, tail) ← match tail with
    | '.' :: rest =>
      let fraction := rest.takeWhile Char.isDigit
      if fraction.isEmpty then none else some (fraction, rest.drop fraction.length)
    | tail => some ([], tail)
  let exponent ← match tail with
    | [] => some 0
    | 'e' :: rest | 'E' :: rest => exponentOf? rest
    | _ => none
  return ⟨negative, ← natOf? (whole ++ fraction), exponent - fraction.length⟩

/-- Reads a number without its sign. Only a zero starts with the digit zero. -/
def ofUnsigned? (negative : Bool) (chars : List Char) : Option Decimal :=
  let whole := chars.takeWhile Char.isDigit
  if whole.isEmpty ∨ (1 < whole.length ∧ whole.head? = some '0') then none
  else ofTail? negative whole (chars.drop whole.length)

def ofText? (text : String) : Option Decimal :=
  match text.toList with
  | '-' :: rest => ofUnsigned? true rest
  | chars => ofUnsigned? false chars

def toFloat (d : Decimal) : Float :=
  let size := Float.ofScientific d.significand (d.exponent < 0) d.exponent.natAbs
  if d.negative then -size else size

end Decimal

namespace Json

/-! ## Values -/

def nat (n : Nat) : Json :=
  number (toString n)

def bool? : Json → Option Bool
  | bool value => some value
  | _ => none

def string? : Json → Option String
  | string text => some text
  | _ => none

def array? : Json → Option (List Json)
  | array items => some items
  | _ => none

/-- The natural number that a value is, if it is less than `bound`; no number with a sign, a point or an
exponent is one. -/
def nat? (bound : Nat) : Json → Option Nat
  | number text => (Decimal.natOf? text.toList).filter (· < bound)
  | _ => none

/-- The whole number that a value is, if it fits in a signed word of so many bits; zero has no sign. -/
def int? (bits : Nat) : Json → Option Int
  | number text =>
    let bound := Nat.pow 2 (bits - 1)
    match text.toList with
    | '-' :: digits =>
      ((Decimal.natOf? digits).filter fun n => 0 < n ∧ n ≤ bound).map fun n => -(n : Int)
    | digits => ((Decimal.natOf? digits).filter (· < bound)).map Int.ofNat
  | _ => none

def float? : Json → Option Float
  | number text => (Decimal.ofText? text).map Decimal.toFloat
  | _ => none

def field? (name : String) : Json → Option Json
  | object fields => List.lookup name fields.reverse
  | _ => none

end Json

end Hashboard
