/-!
# Byte strings

Big-endian and little-endian numbers, hexadecimal text, and the writing of a field into a buffer. A
buffer is a list of bytes throughout.
-/

namespace Hashboard.Bytes

/-! ## Numbers -/

/-- The number that the bytes spell, most significant first. -/
def toNat (bytes : List UInt8) : Nat :=
  bytes.foldl (fun n b => n * 256 + b.toNat) 0

/-- The last `width` base-256 digits of `n`, most significant first. -/
def ofNat : (width : Nat) → (n : Nat) → List UInt8
  | 0, _ => []
  | width + 1, n => ofNat width (n / 256) ++ [UInt8.ofNat n]

/-- The last `width` base-256 digits of `n`, least significant first. -/
def ofNatLittle (width n : Nat) : List UInt8 :=
  (ofNat width n).reverse

/-- The bytes of `bytes` from position `start`, at most `count` of them. -/
def slice (start count : Nat) (bytes : List UInt8) : List UInt8 :=
  (bytes.drop start).take count

def u16At (start : Nat) (bytes : List UInt8) : UInt16 :=
  UInt16.ofNat (toNat (slice start 2 bytes))

def u32At (start : Nat) (bytes : List UInt8) : UInt32 :=
  UInt32.ofNat (toNat (slice start 4 bytes))

/-! ## Buffers -/

/-- Cuts a buffer to `length` bytes, or fills it up to that length. -/
def resize (length : Nat) (filler : UInt8) (bytes : List UInt8) : List UInt8 :=
  bytes.take length ++ List.replicate (length - bytes.length) filler

/-- The first `count` pieces of `size` elements each. -/
def pieces {α : Type} (size : Nat) : (count : Nat) → List α → List (List α)
  | 0, _ => []
  | count + 1, xs => xs.take size :: pieces size count (xs.drop size)

/-! ## Hexadecimal text -/

def hexDigit (n : Nat) : Char :=
  Nat.digitChar (n % 16)

def hex (bytes : List UInt8) : String :=
  String.ofList (bytes.flatMap fun b => [hexDigit (b.toNat / 16), hexDigit b.toNat])

def hexValue? (c : Char) : Option Nat :=
  if '0' ≤ c ∧ c ≤ '9' then some (c.toNat - '0'.toNat)
  else if 'a' ≤ c ∧ c ≤ 'f' then some (c.toNat - 'a'.toNat + 10)
  else if 'A' ≤ c ∧ c ≤ 'F' then some (c.toNat - 'A'.toNat + 10)
  else none

/-- Reads pairs of hexadecimal digits. -/
def ofHexChars? : List Char → Option (List UInt8)
  | [] => some []
  | [_] => none
  | high :: low :: rest => do
    let byte := UInt8.ofNat ((← hexValue? high) * 16 + (← hexValue? low))
    return byte :: (← ofHexChars? rest)

def ofHex? (text : String) : Option (List UInt8) :=
  ofHexChars? text.toList

/-- The lower-case hexadecimal text of `n`, filled up with zeros to `width` digits. -/
def hexNat (width n : Nat) : String :=
  let digits := Nat.toDigits 16 n
  String.ofList (List.replicate (width - digits.length) '0' ++ digits)

end Hashboard.Bytes
