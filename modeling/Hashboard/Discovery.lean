import Hashboard.Control
import Hashboard.CoreMap
import Hashboard.Log

/-!
# Discovery of boards

Asks the slaves of the control bus one after the other for the status of their cores, block by block. A
slave is a board if its first block can be read and shows a working core; the cores of any other block
that cannot be read count as broken.
-/

namespace Hashboard

inductive DiscoveryNotice where
  | silent (slave : UInt16) (error : ControlError)
  | noWorkingCores (slave : UInt16)
  | unreadable (slave : UInt16) (register : UInt8) (error : ControlError)
  | outsideRange (slave : UInt16)
  | found (asic : UInt8) (slave : UInt16) (enabled cores : Nat)
  deriving DecidableEq, Repr

def DiscoveryNotice.record (notice : DiscoveryNotice) : Log.Record :=
  let hexText := ControlError.hexText
  match notice with
  | silent slave error =>
    ⟨.debug, "DISCOVERY", "slave " ++ hexText slave.toNat ++ ": " ++ error.message⟩
  | noWorkingCores slave =>
    ⟨.debug, "DISCOVERY",
      "slave " ++ hexText slave.toNat ++ ": no working cores in first status block"⟩
  | unreadable slave register error =>
    ⟨.warn, "DISCOVERY",
      "slave " ++ hexText slave.toNat ++ ": status block " ++ hexText register.toNat
        ++ " unreadable, cores disabled: " ++ error.message⟩
  | outsideRange slave =>
    ⟨.warn, "DISCOVERY",
      "slave " ++ hexText slave.toNat ++ " is outside the board address range, skipping"⟩
  | found asic slave enabled cores =>
    ⟨.info, "DISCOVERY",
      s!"asic {asic} at " ++ hexText slave.toNat ++ s!": {enabled}/{cores} cores enabled"⟩

inductive DiscoveryError where
  | coreMap (error : CoreMapError)
  | noBoards
  deriving DecidableEq, Repr

def DiscoveryError.message : DiscoveryError → String
  | coreMap error => error.message
  | noBoards => "no boards answered on the control bus"

namespace Discovery

variable {κ : Type} [ControlBus κ]

def blankBlock : List UInt8 :=
  List.replicate Wire.statusBlockLength 0

/-- The registers where the status blocks behind the first one start. -/
def laterRegisters : List UInt8 :=
  (List.range (Wire.coresPerBoard / Wire.statusBlockLength - 1)).map fun n =>
    UInt8.ofNat ((n + 1) * Wire.statusBlockLength)

/-- Reads one status block behind the first; one that cannot be read counts as all zero. -/
def readLater (control : κ) (slave : UInt16) (register : UInt8) :
    List UInt8 × List DiscoveryNotice × κ :=
  match ControlBus.readBlock control register blankBlock with
  | (.ok (), block, control) => (block, [], control)
  | (.error e, _, control) => (blankBlock, [.unreadable slave register e], control)

def readAll (slave : UInt16) :
    (control : κ) → List UInt8 → List UInt8 × List DiscoveryNotice × κ
  | control, [] => ([], [], control)
  | control, register :: rest =>
    let (block, notices, control) := readLater control slave register
    let (blocks, more, control) := readAll slave control rest
    (block ++ blocks, notices ++ more, control)

/-- The statuses of all cores of the board at this address: none if there is no board, or none whose
first block shows a working core. -/
def probe (control : κ) (slave : UInt16) : Option (List UInt8) × List DiscoveryNotice × κ :=
  match ControlBus.select control slave with
  | (.error e, control) => (none, [.silent slave e], control)
  | (.ok (), control) =>
    match ControlBus.readBlock control 0 blankBlock with
    | (.error e, _, control) => (none, [.silent slave e], control)
    | (.ok (), first, control) =>
      if first.contains Wire.coreStatusOk then
        let (rest, notices, control) := readAll slave control laterRegisters
        (some (first ++ rest), notices, control)
      else
        (none, [.noWorkingCores slave], control)

/-- Whether boards have addresses like this one. -/
def inRange (slave : UInt16) : Bool :=
  Wire.firstBoardSlave ≤ slave ∧ slave ≤ Wire.lastBoardSlave

def asicAt (slave : UInt16) : UInt8 :=
  (slave - Wire.firstBoardSlave).toUInt8

def registerAll : (control : κ) → List UInt16 → CoreMap →
    Except CoreMapError CoreMap × List DiscoveryNotice × κ
  | control, [], cores => (.ok cores, [], control)
  | control, slave :: rest, cores =>
    if inRange slave then
      match probe control slave with
      | (none, notices, control) =>
        let (result, more, control) := registerAll control rest cores
        (result, notices ++ more, control)
      | (some statuses, notices, control) =>
        let enabled := statuses.count Wire.coreStatusOk
        let notices := notices ++ [.found (asicAt slave) slave enabled statuses.length]
        match cores.register (asicAt slave) statuses with
        | (.error e, _) => (.error e, notices, control)
        | (.ok (), cores) =>
          let (result, more, control) := registerAll control rest cores
          (result, notices ++ more, control)
    else
      let (result, more, control) := registerAll control rest cores
      (result, .outsideRange slave :: more, control)

/-- Finds the boards among some slaves and adds them to those known already; it takes at least one board
in the end. -/
def discover (control : κ) (slaves : List UInt16) (known : CoreMap) :
    Except DiscoveryError CoreMap × List DiscoveryNotice × κ :=
  match registerAll control slaves known with
  | (.error e, notices, control) => (.error (.coreMap e), notices, control)
  | (.ok cores, notices, control) =>
    (if cores.byAsic.isEmpty then .error .noBoards else .ok cores, notices, control)

end Discovery

end Hashboard
