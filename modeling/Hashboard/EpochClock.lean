import Hashboard.Work

/-!
# The epoch clock

The clock tells which work is out of date. Work made before the current epoch is stale when nothing
hurries; work made before the floor is stale even if the boards already search it. Advancing the clock
moves the floor along unless the work in flight is to be kept.
-/

namespace Hashboard

/-- How much out of date work has to be to count as stale. -/
inductive Urgency where
  /-- Older than the current epoch. -/
  | relaxed
  /-- Older than the oldest epoch whose work may still be searched. -/
  | urgent
  deriving DecidableEq, Repr

/-- The current epoch, and the oldest epoch whose work may still be searched. -/
structure EpochClock where
  current : UInt64
  floor : UInt64
  deriving DecidableEq, Repr

namespace EpochClock

def start (epoch : UInt64) : EpochClock :=
  ⟨epoch, epoch⟩

/-- Sets the current epoch; the floor follows unless the work in flight is kept. -/
def advance (clock : EpochClock) (epoch : UInt64) (keepInFlight : Bool) : EpochClock :=
  ⟨epoch, if keepInFlight then clock.floor else epoch⟩

/-- The clock in the next epoch: none if the current one is the last. -/
def next? (clock : EpochClock) (keepInFlight : Bool) : Option EpochClock :=
  if clock.current.toNat + 1 < UInt64.size then
    some (clock.advance (clock.current + 1) keepInFlight)
  else
    none

/-- The epoch that work must have been made in at least, to count as fresh. -/
def threshold (clock : EpochClock) : Urgency → UInt64
  | .relaxed => clock.current
  | .urgent => clock.floor

def isStale (clock : EpochClock) (urgency : Urgency) (item : Item) : Bool :=
  item.epoch < clock.threshold urgency

end EpochClock

end Hashboard
