import Hashboard.Json

/-!
# Values as JSON

The types whose values have a place in a document.
-/

namespace Hashboard

class ToJson (α : Type) where
  toJson : α → Json

export ToJson (toJson)

instance : ToJson Json := ⟨id⟩
instance : ToJson Nat := ⟨.nat⟩
instance : ToJson Int := ⟨fun n => .number (toString n)⟩
instance : ToJson UInt8 := ⟨fun n => .nat n.toNat⟩
instance : ToJson UInt16 := ⟨fun n => .nat n.toNat⟩
instance : ToJson UInt32 := ⟨fun n => .nat n.toNat⟩
instance : ToJson UInt64 := ⟨fun n => .nat n.toNat⟩
instance : ToJson Bool := ⟨.bool⟩
instance : ToJson String := ⟨.string⟩
instance : ToJson Unit := ⟨fun _ => .null⟩

instance {α : Type} [ToJson α] : ToJson (Option α) := ⟨fun o => o.elim .null toJson⟩

instance {α β : Type} [ToJson α] [ToJson β] : ToJson (α × β) :=
  ⟨fun (a, b) => .array [toJson a, toJson b]⟩

instance (priority := low) {α : Type} [ToJson α] : ToJson (List α) :=
  ⟨fun items => .array (items.map toJson)⟩

abbrev Json.Fields : Type := List (String × Json)

instance : ToJson Json.Fields := ⟨.object⟩

end Hashboard
