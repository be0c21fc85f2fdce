/-!
Lengths of time, exact to the nanosecond and bounded on both sides by the same magnitude.
-/

namespace SealedContainer

namespace Duration

def nanosPerSecond : Nat := 1000000000

/--
The longest duration, in nanoseconds: the most milliseconds that a signed 64-bit number counts.
-/
def limit : Int := (2 ^ 63 - 1) * 1000000

end Duration

structure Duration where
  nanos : Int
  bounded : -Duration.limit ≤ nanos ∧ nanos ≤ Duration.limit
  deriving DecidableEq

namespace Duration

def ofNanos? (n : Int) : Option Duration :=
  if h : -limit ≤ n ∧ n ≤ limit then some ⟨n, h⟩ else none

def add? (a b : Duration) : Option Duration := ofNanos? (a.nanos + b.nanos)

def neg (d : Duration) : Duration := ⟨-d.nanos, by have h := d.bounded; omega⟩

instance : Neg Duration := ⟨neg⟩

instance : LE Duration := ⟨fun a b => a.nanos ≤ b.nanos⟩

instance : LT Duration := ⟨fun a b => a.nanos < b.nanos⟩

instance (a b : Duration) : Decidable (a ≤ b) := inferInstanceAs (Decidable (a.nanos ≤ b.nanos))

instance (a b : Duration) : Decidable (a < b) := inferInstanceAs (Decidable (a.nanos < b.nanos))

def seconds (d : Duration) : Int := d.nanos.tdiv nanosPerSecond

def subsecNanos (d : Duration) : Int := d.nanos.tmod nanosPerSecond

def zero : Duration := ⟨0, by decide⟩

@[simp] theorem nanos_neg (d : Duration) : (-d).nanos = -d.nanos := rfl

theorem ofNanos?_nanos (d : Duration) : ofNanos? d.nanos = some d := by
  simp [ofNanos?, d.bounded]

end Duration

end SealedContainer
