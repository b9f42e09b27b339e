import Hashboard.Reply
import Std.Data.TreeMap

/-!
# Cores

The cores of a device are numbered board by board in the order of registration. A core map translates
the address in a reply (asic and place on the board) to that number and back.
-/

namespace Hashboard

structure CoreId where
  index : Nat
  deriving DecidableEq, Repr

/-- How messages name a core known by its number alone. -/
def CoreId.name (id : CoreId) : String :=
  s!"core{id.index}"

structure Core where
  asic : UInt8
  /-- The core's place on its board, as addresses count it. -/
  index : UInt32
  enabled : Bool
  deriving DecidableEq, Repr

inductive CoreMapError where
  | duplicateAsic (asic : UInt8)
  deriving DecidableEq, Repr

def CoreMapError.message : CoreMapError → String
  | duplicateAsic asic => s!"asic {asic} registered twice"

/-- The cores of a device in the order of their registration, and for each asic the numbers of its cores. -/
structure CoreMap where
  cores : Array Core
  byAsic : Std.TreeMap UInt8 (Array CoreId)

namespace CoreMap

def empty : CoreMap :=
  ⟨#[], {}⟩

def size (m : CoreMap) : Nat :=
  m.cores.size

def enabledCount (m : CoreMap) : Nat :=
  m.cores.countP Core.enabled

/-- Enters the cores of a board one after the other, and notes the number that each of them gets. -/
def enterCores (asic : UInt8) : (place : Nat) → List UInt8 → Array Core → Array CoreId →
    Array Core × Array CoreId
  | _, [], cores, ids => (cores, ids)
  | place, status :: rest, cores, ids =>
    enterCores asic (place + 1) rest
      (cores.push ⟨asic, UInt32.ofNat place, status == Wire.coreStatusOk⟩) (ids.push ⟨cores.size⟩)

/-- Registers a board from the status bytes of its cores: each asic at most once. -/
def register (m : CoreMap) (asic : UInt8) (statuses : List UInt8) : Except CoreMapError Unit × CoreMap :=
  if m.byAsic.contains asic then
    (.error (.duplicateAsic asic), m)
  else
    let (cores, ids) := enterCores asic 0 statuses m.cores #[]
    (.ok (), ⟨cores, m.byAsic.insert asic ids⟩)

def registerAll : CoreMap → List (UInt8 × List UInt8) → Except CoreMapError CoreMap
  | m, [] => .ok m
  | m, (asic, statuses) :: rest =>
    match m.register asic statuses with
    | (.error e, _) => .error e
    | (.ok (), m) => m.registerAll rest

def asics (m : CoreMap) : List UInt8 :=
  m.byAsic.keys

/-- The core at an address: the asic's cores are counted from its first one. -/
def resolve (m : CoreMap) (address : CoreAddress) : Option CoreId :=
  (m.byAsic[address.asic]?).bind fun ids => ids[address.core.toNat]?

def get? (m : CoreMap) (id : CoreId) : Option Core :=
  m.cores[id.index]?

def label (m : CoreMap) (id : CoreId) : String :=
  match m.get? id with
  | some core => s!"asic{core.asic}/{core.index}"
  | none => id.name

end CoreMap

end Hashboard
