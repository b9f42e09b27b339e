/-!
# Clock readings

Instants are nanoseconds on a clock with an arbitrary origin, durations are nanoseconds. The clock keeps
its seconds in a signed 64-bit word, so a sum beyond that has no reading.
-/

namespace Hashboard

/-- A reading of the clock, in nanoseconds. -/
abbrev Instant : Type := Int

/-- A span of time, in nanoseconds. -/
abbrev Duration : Type := Nat

namespace Duration

def ofMicros (n : Nat) : Duration := n * 1000
def ofMillis (n : Nat) : Duration := n * 1000000
def ofSecs (n : Nat) : Duration := n * 1000000000

/-- The span in seconds: the whole ones, and a fraction for the rest. -/
def toSecs (d : Duration) : Float :=
  (d / 1000000000).toFloat + (d % 1000000000).toFloat / 1e9

/-- The span in seconds to divide by, which is never shorter than a millisecond. -/
def divisor (d : Duration) : Float :=
  let secs := d.toSecs
  if secs < 0.001 then 0.001 else secs

end Duration

namespace Instant

/-- The first reading that the clock cannot show. -/
def limit : Instant := 9223372036854775808 * 1000000000

/-- The reading `span` after `t`: none if the clock cannot show it. -/
def after? (t : Instant) (span : Duration) : Option Instant :=
  if t + span < limit then some (t + span) else none

def before? (t : Instant) (span : Duration) : Option Instant :=
  if -limit ≤ t - span then some (t - span) else none

/-- The time from `earlier` to `later`: zero if `later` comes first. -/
def since (later earlier : Instant) : Duration :=
  (later - earlier).toNat

end Instant

end Hashboard
