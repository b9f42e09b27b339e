import Hashboard.Bytes

/-!
# Numerals

Reading natural numbers up to a limit. A plus sign may stand in front, and nothing else but digits. The
digits are looked at one after the other, so of two faults the one further left counts.
-/

namespace Hashboard

inductive NumeralError where
  | empty
  | invalidDigit
  | tooLarge
  deriving DecidableEq, Repr

def NumeralError.message : NumeralError → String
  | empty => "cannot parse integer from empty string"
  | invalidDigit => "invalid digit found in string"
  | tooLarge => "number too large to fit in target type"

namespace Numeral

/-- Reads digits behind those that spell `value`. -/
def readDigits (radix limit : Nat) : (value : Nat) → List Char → Except NumeralError Nat
  | value, [] => .ok value
  | value, c :: rest =>
    match (Bytes.hexValue? c).filter (· < radix) with
    | none => .error .invalidDigit
    | some digit =>
      let value := radix * value + digit
      if limit < value then .error .tooLarge else readDigits radix limit value rest

def read (radix limit : Nat) : List Char → Except NumeralError Nat
  | [] => .error .empty
  | ['+'] => .error .invalidDigit
  | '+' :: rest => readDigits radix limit 0 rest
  | chars => readDigits radix limit 0 chars

/-- Reads a decimal number for which a negative one was possible: a zero may have a minus sign. -/
def readSigned (limit : Nat) : List Char → Except NumeralError Nat
  | '-' :: c :: rest => readDigits 10 0 0 (c :: rest)
  | chars => read 10 limit chars

end Numeral

end Hashboard
