import Hashboard.Bytes
import Hashboard.Json

/-!
# Reading JSON

A reader takes the characters of a document and returns a value with the characters behind it, or none if
no value stands there.
-/

namespace Hashboard.Json

def skipBlanks (chars : List Char) : List Char :=
  chars.dropWhile fun c => c = ' ' ∨ c = '\n' ∨ c = '\r' ∨ c = '\t'

/-! ## Strings -/

/-- What the character behind a backslash stands for. -/
def escapes : List (Char × Char) :=
  [('"', '"'), ('\\', '\\'), ('/', '/'), ('n', '\n'), ('t', '\t'), ('r', '\r'), ('b', '\x08'),
    ('f', '\x0c')]

/-- The sixteen bits that four hexadecimal digits spell. -/
def unit? (a b c d : Char) : Option Nat :=
  ([a, b, c, d].mapM Bytes.hexValue?).map fun digits => digits.foldl (fun n digit => 16 * n + digit) 0

/-- Whether sixteen bits are the first half of a character. -/
def isHighHalf (unit : Nat) : Bool :=
  0xd800 ≤ unit ∧ unit < 0xdc00

/-- Whether sixteen bits are the second half of a character. -/
def isLowHalf (unit : Nat) : Bool :=
  0xdc00 ≤ unit ∧ unit < 0xe000

/-- Reads a string behind its opening quote. The characters read so far are given last first, and with
them the first half of a character whose second half has to follow. -/
def readString? : (half : Option Nat) → (read : List Char) → List Char →
    Option (String × List Char)
  | none, read, '"' :: rest => some (String.ofList read.reverse, rest)
  | half, read, '\\' :: 'u' :: a :: b :: c :: d :: rest =>
    match half, unit? a b c d with
    | _, none => none
    | some high, some low =>
      if isLowHalf low then
        let place := (high - 0xd800) * 0x400 + (low - 0xdc00)
        readString? none (Char.ofNat (0x10000 + place) :: read) rest
      else
        none
    | none, some unit =>
      if isHighHalf unit then readString? (some unit) read rest
      else if isLowHalf unit then none
      else readString? none (Char.ofNat unit :: read) rest
  | none, read, '\\' :: c :: rest =>
    match escapes.lookup c with
    | some meant => readString? none (meant :: read) rest
    | none => none
  | none, read, c :: rest => if c.toNat < 32 then none else readString? none (c :: read) rest
  | _, _, _ => none

/-! ## Values -/

def isNumeric (c : Char) : Bool :=
  c.isDigit ∨ c = '-' ∨ c = '+' ∨ c = '.' ∨ c = 'e' ∨ c = 'E'

def readNumber? (chars : List Char) : Option (Json × List Char) :=
  let text := String.ofList (chars.takeWhile isNumeric)
  (Decimal.ofText? text).map fun _ => (number text, chars.dropWhile isNumeric)

/-- Reads the name of a field and the colon behind it. -/
def readName? (chars : List Char) : Option (String × List Char) := do
  let '"' :: rest := skipBlanks chars | none
  let (name, rest) ← readString? none [] rest
  let ':' :: rest := skipBlanks rest | none
  return (name, rest)

mutual

/-- Reads a value; a value is at most `fuel` levels deep and has at most so many items. -/
def readValue? : (fuel : Nat) → List Char → Option (Json × List Char)
  | 0, _ => none
  | fuel + 1, chars =>
    match skipBlanks chars with
    | 'n' :: 'u' :: 'l' :: 'l' :: rest => some (null, rest)
    | 't' :: 'r' :: 'u' :: 'e' :: rest => some (bool true, rest)
    | 'f' :: 'a' :: 'l' :: 's' :: 'e' :: rest => some (bool false, rest)
    | '"' :: rest => (readString? none [] rest).map fun (text, rest) => (string text, rest)
    | '[' :: rest =>
      match skipBlanks rest with
      | ']' :: rest => some (array [], rest)
      | rest => readItems? fuel [] rest
    | '\x7b' :: rest =>
      match skipBlanks rest with
      | '\x7d' :: rest => some (object [], rest)
      | rest => readFields? fuel [] rest
    | chars => readNumber? chars

/-- Reads the items of an array up to its bracket; those read so far are given last first. -/
def readItems? : (fuel : Nat) → (read : List Json) → List Char → Option (Json × List Char)
  | 0, _, _ => none
  | fuel + 1, read, chars => do
    let (item, rest) ← readValue? fuel chars
    match skipBlanks rest with
    | ',' :: rest => readItems? fuel (item :: read) rest
    | ']' :: rest => some (array (item :: read).reverse, rest)
    | _ => none

/-- Reads the fields of an object up to its brace; those read so far are given last first. -/
def readFields? : (fuel : Nat) → (read : List (String × Json)) → List Char →
    Option (Json × List Char)
  | 0, _, _ => none
  | fuel + 1, read, chars => do
    let (name, rest) ← readName? chars
    let (value, rest) ← readValue? fuel rest
    match skipBlanks rest with
    | ',' :: rest => readFields? fuel ((name, value) :: read) rest
    | '\x7d' :: rest => some (object ((name, value) :: read).reverse, rest)
    | _ => none

end

/-- Reads a document, behind which only blanks may follow. -/
def parse? (text : String) : Option Json :=
  let chars := text.toList
  match readValue? (2 * chars.length + 2) chars with
  | some (value, rest) => if (skipBlanks rest).isEmpty then some value else none
  | none => none

end Hashboard.Json
