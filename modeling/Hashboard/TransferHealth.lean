import Hashboard.Log

/-!
# Transfer health

Counts the transfers that have failed in a row. A long run of failures is warned of once, and so is its
end.
-/

namespace Hashboard

/-- The number of transfers that have failed in a row. -/
structure TransferHealth where
  failures : Nat
  deriving DecidableEq, Repr

inductive HealthNotice where
  | failing (failures : Nat)
  | recovered (failures : Nat)
  deriving DecidableEq, Repr

def HealthNotice.record (device : String) : HealthNotice → Log.Record
  | failing failures => ⟨.warn, "DEVICE", s!"{device}: {failures} consecutive transfer failures"⟩
  | recovered failures =>
    ⟨.info, "DEVICE", s!"{device}: bus recovered after {failures} failed transfers"⟩

namespace TransferHealth

/-- The length of a run of failures that is worth a warning. -/
def warnThreshold : Nat := 100

/-- The count stops here. -/
def maxFailures : Nat := 4294967295

def good : TransferHealth := ⟨0⟩

def record (h : TransferHealth) (ok : Bool) : TransferHealth × Option HealthNotice :=
  if ok then
    (good, if warnThreshold ≤ h.failures then some (.recovered h.failures) else none)
  else
    let failures := min (h.failures + 1) maxFailures
    (⟨failures⟩, if failures = warnThreshold then some (.failing failures) else none)

end TransferHealth

end Hashboard
