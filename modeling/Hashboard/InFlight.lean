import Hashboard.Work
import Std.Data.TreeMap

/-!
# Work in flight

The table of the items that the boards have accepted. Every item gets the next id of a cyclic space of
fifteen bits; next to the ids the table keeps the order of insertion, so that the newest item is known
after any removals.
-/

namespace Hashboard

/-- An item on the boards and the number of its insertion. -/
structure InFlightEntry where
  seq : Nat
  item : Item
  deriving Repr

/-- The items on the boards by id and by insertion. -/
structure InFlight where
  entries : Std.TreeMap UInt16 InFlightEntry
  order : Std.TreeMap Nat UInt16
  nextSeq : Nat
  nextId : UInt16

namespace InFlight

def empty : InFlight :=
  ⟨{}, {}, 0, 0⟩

def size (t : InFlight) : Nat :=
  t.entries.size

/-- The id that the insertion `offset` places after the next one will get. -/
def idAt (t : InFlight) (offset : Nat) : UInt16 :=
  UInt16.ofNat (t.nextId.toNat + offset) &&& Wire.idMask

def get? (t : InFlight) (id : UInt16) : Option Item :=
  (t.entries[id]?).map InFlightEntry.item

/-- The item inserted last among those on the boards. -/
def newest? (t : InFlight) : Option Item :=
  t.order.maxKey?.bind fun seq => (t.order[seq]?).bind t.get?

/-- The ids on the boards in the order of their insertion. -/
def ids (t : InFlight) : List UInt16 :=
  t.order.toList.map Prod.snd

/-- Inserts an item under the next id. An item that still holds the id is pushed out and returned. -/
def insertNext (t : InFlight) (item : Item) : UInt16 × Option Item × InFlight :=
  let id := t.nextId
  let displaced := t.entries[id]?
  let order := displaced.elim t.order fun old => t.order.erase old.seq
  (id, displaced.map InFlightEntry.item, {
    entries := t.entries.insert id ⟨t.nextSeq, item⟩
    order := order.insert t.nextSeq id
    nextSeq := t.nextSeq + 1
    nextId := t.idAt 1 })

def remove (t : InFlight) (id : UInt16) : Option Item × InFlight :=
  match t.entries[id]? with
  | none => (none, t)
  | some entry =>
    (some entry.item,
      { t with entries := t.entries.erase id, order := t.order.erase entry.seq })

/-- Takes all items off the table; ids go on from where they were. -/
def clear (t : InFlight) : InFlight :=
  { t with entries := {}, order := {} }

end InFlight

end Hashboard
