import Hashboard.Adapter
import Hashboard.Log
import Hashboard.Wire

/-!
# Temperatures

A board's thermometer gives whole degrees in the low byte of a word and half a degree in the bit above.
-/

namespace Hashboard

/-- A temperature in half degrees. -/
structure Temperature where
  halves : Nat
  deriving DecidableEq, Repr

namespace Temperature

def ofWord (word : UInt16) : Temperature :=
  ⟨2 * (word &&& 0xff).toNat + ((word >>> 8) &&& 1).toNat⟩

/-- The temperature in degrees with one decimal place. -/
def text (t : Temperature) : String :=
  let whole := t.halves / 2
  if t.halves % 2 = 0 then s!"{whole}.0" else s!"{whole}.5"

end Temperature

inductive ThermalNotice where
  | unavailable (asic : UInt8) (error : ControlError)
  deriving DecidableEq, Repr

def ThermalNotice.record : ThermalNotice → Log.Record
  | unavailable asic error =>
    ⟨.debug, "THERMAL", s!"asic {asic}: temperature unavailable: {error.message}"⟩

namespace Thermal

/-- The adapter that a board's thermometer hangs on. -/
def path (asic : UInt8) : String :=
  let number := asic.toNat + Wire.thermalAdapterOffset
  s!"/dev/i2c-{number}"

def readBoard {κ : Type} [ControlBus κ] (control : κ) : Except ControlError Temperature × κ :=
  match ControlBus.select control Wire.thermalSlave with
  | (.error e, control) => (.error e, control)
  | (.ok (), control) =>
    let (word, control) := ControlBus.readWord control 0
    (word.map Temperature.ofWord, control)

/-- Reads the thermometers of some boards; boards without one are left out. -/
def readAll (asics : List UInt8) : List (UInt8 × Temperature) × List ThermalNotice :=
  let results := asics.map fun asic =>
    (asic, (Adapter.openControl (path asic)).bind fun adapter => (readBoard adapter).1)
  (results.filterMap fun (asic, result) => result.toOption.map (asic, ·),
    results.filterMap fun (asic, result) => match result with
      | .ok _ => none
      | .error e => some (.unavailable asic e))

end Thermal

end Hashboard
