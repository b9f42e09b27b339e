import Hashboard.Decimal.Binary
import Hashboard.Json

/-!
# Values from JSON

A decoder reads a value from an object, field by field. Its error is the name of the field at fault.
-/

namespace Hashboard

class OfJson (α : Type) where
  ofJson? : Json → Option α

export OfJson (ofJson?)

instance : OfJson Json := ⟨some⟩
instance : OfJson Nat := ⟨Json.nat? UInt64.size⟩
instance : OfJson Int := ⟨Json.int? 64⟩
instance : OfJson Int32 := ⟨fun v => Int32.ofInt <$> v.int? 32⟩
instance : OfJson UInt8 := ⟨fun v => UInt8.ofNat <$> v.nat? UInt8.size⟩
instance : OfJson UInt16 := ⟨fun v => UInt16.ofNat <$> v.nat? UInt16.size⟩
instance : OfJson UInt32 := ⟨fun v => UInt32.ofNat <$> v.nat? UInt32.size⟩
instance : OfJson UInt64 := ⟨fun v => UInt64.ofNat <$> v.nat? UInt64.size⟩
instance : OfJson Bool := ⟨Json.bool?⟩
instance : OfJson String := ⟨Json.string?⟩
instance : OfJson Float := ⟨Json.float?⟩

/-- The number of 32 bits nearest to a value. A whole number that fits in a word is rounded once, any
other number first to 64 bits. -/
def Json.single? (v : Json) : Option Float32 :=
  let nearest (n : Nat) : Float32 := (Binary.roundDigits 24 n).toFloat.toFloat32
  match v.nat? UInt64.size, v.int? 64 with
  | some n, _ => some (nearest n)
  | none, some n => some (-nearest n.natAbs)
  | none, none => Float.toFloat32 <$> v.float?

instance : OfJson Float32 := ⟨Json.single?⟩

instance {α : Type} [OfJson α] : OfJson (Option α) where
  ofJson?
    | .null => some none
    | v => some <$> ofJson? v

instance {α β : Type} [OfJson α] [OfJson β] : OfJson (α × β) where
  ofJson?
    | .array [a, b] => return (← ofJson? a, ← ofJson? b)
    | _ => none

instance (priority := low) {α : Type} [OfJson α] : OfJson (List α) :=
  ⟨fun v => v.array?.bind fun items => items.mapM ofJson?⟩

namespace Json

/-- Reads a value from an object, or names the field at fault. -/
abbrev Decoder (α : Type) : Type := ReaderT Json (Except String) α

namespace Decoder

/-- An array with an item for each of these names stands for the object with these fields. -/
def named {α : Type} (names : List String) (d : Decoder α) : Decoder α :=
  withReader (fun
    | array items => if items.length = names.length then object (names.zip items) else array items
    | v => v) d

def optional (name : String) : Decoder (Option Json) :=
  return (← read).field? name

def field {α : Type} [OfJson α] (name : String) : Decoder α := do
  match (← optional name).bind ofJson? with
  | some a => return a
  | none => throw name

/-- The value of the field of this name, or another one if there is no such field. -/
def fieldD {α : Type} [OfJson α] (name : String) (default : α) : Decoder α := do
  if (← optional name).isSome then field name else return default

def has (name : String) : Decoder Bool :=
  return (← optional name).isSome

section

variable {m : Type → Type} [Monad m] [MonadLiftT Decoder m] [MonadWithReaderOf Json m] {α : Type}

/-- Decodes an object that is not the current one. -/
def within (d : m α) (o : Json) : m α :=
  withTheReader Json (fun _ => o) d

/-- Decodes the object in the field of this name. -/
def inner (name : String) (d : m α) : m α := do
  within d (← field name)

/-- Decodes each of the objects in the field of this name. -/
def each (name : String) (d : m α) : m (List α) := do
  let objects : List Json ← field name
  objects.mapM (within d)

end

end Decoder

end Json

end Hashboard
