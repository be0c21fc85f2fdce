import SealedContainer.Calendar
import SealedContainer.Duration

/-!
Points in time on the scale of coordinated universal time, exact to the nanosecond.
-/

namespace SealedContainer

namespace Instant

def secondsPerDay : Nat := 86400

def firstSecond : Int := Calendar.yearStart (-262143) * secondsPerDay

def lastSecond : Int := Calendar.yearStart 262143 * secondsPerDay - 1

end Instant

/--
A second, counted from the beginning of 1970 in days of 86400, and nanoseconds within it. A leap
second has the number of the second before it, which ends a minute, and a billion nanoseconds more.
-/
structure Instant where
  seconds : Int
  nanos : Nat
  bounded : Instant.firstSecond ≤ seconds ∧ seconds ≤ Instant.lastSecond
  counted : nanos < 10 ^ 9 ∨ nanos < 2 * 10 ^ 9 ∧ seconds % 60 = 59
  deriving DecidableEq

namespace Instant

def of? (seconds : Int) (nanos : Nat) : Option Instant :=
  if h : (firstSecond ≤ seconds ∧ seconds ≤ lastSecond) ∧
      (nanos < 10 ^ 9 ∨ nanos < 2 * 10 ^ 9 ∧ seconds % 60 = 59) then
    some ⟨seconds, nanos, h.1, h.2⟩
  else none

def first : Instant := ⟨firstSecond, 0, by decide, by decide⟩

def last : Instant := ⟨lastSecond, 999999999, by decide, by decide⟩

def Before (a b : Instant) : Prop :=
  a.seconds < b.seconds ∨ a.seconds = b.seconds ∧ a.nanos < b.nanos

instance : LT Instant := ⟨Before⟩

instance : LE Instant := ⟨fun a b => ¬ b < a⟩

instance (a b : Instant) : Decidable (a < b) :=
  inferInstanceAs (Decidable (a.seconds < b.seconds ∨ a.seconds = b.seconds ∧ a.nanos < b.nanos))

instance (a b : Instant) : Decidable (a ≤ b) := inferInstanceAs (Decidable (¬ b < a))

def earlier (a b : Instant) : Instant := if b < a then b else a

/-- The instant `nanos` nanoseconds, possibly a negative number, after the start of a second. -/
def shifted? (seconds : Int) (nanos : Int) : Option Instant :=
  of? (seconds + nanos / Duration.nanosPerSecond) (nanos % Duration.nanosPerSecond).toNat

/--
The instant a duration later, if it is within bounds. Within its own leap second an instant moves
as in any other. A sum that leaves the leap second counts from the same place in the second before
it when it goes forward, and in the second after it when it goes back by a second or more.
-/
def add? (t : Instant) (d : Duration) : Option Instant :=
  let leap := Duration.nanosPerSecond
  if t.nanos < leap then shifted? t.seconds (t.nanos + d.nanos)
  else if 0 < d.seconds ∨ 2 * leap ≤ t.nanos + d.subsecNanos then
    shifted? t.seconds (t.nanos - leap + d.nanos)
  else if d.seconds < 0 then shifted? (t.seconds + 1) (t.nanos - leap + d.nanos)
  else of? t.seconds (t.nanos + d.nanos).toNat

def addBounded (t : Instant) (d : Duration) : Instant := (t.add? d).getD last

end Instant

end SealedContainer
