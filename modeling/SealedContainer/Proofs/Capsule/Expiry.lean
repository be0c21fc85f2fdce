import SealedContainer.Config.Toml
import SealedContainer.Proofs.Capsule.Keeping
import SealedContainer.Proofs.Outcome

/-!
How long a server keeps capsules under a valid configuration. Main statement: `kept_within_bound`.
No capsule is kept longer than the maximum allows, unless the maximum is so far in the past that the
sum lies before all instants: then the last instant takes its place.
-/

namespace SealedContainer

namespace Duration

theorem parts (d : Duration) :
    0 ≤ d.nanos ∧ d.seconds = d.nanos / 1000000000 ∧ d.subsecNanos = d.nanos % 1000000000 ∨
      d.nanos ≤ 0 ∧ d.seconds = -(-d.nanos / 1000000000) ∧
        d.subsecNanos = -(-d.nanos % 1000000000) := by
  rcases Int.le_total 0 d.nanos with positive | negative
  · exact .inl ⟨positive, Int.tdiv_eq_ediv_of_nonneg positive, Int.tmod_eq_emod_of_nonneg positive⟩
  · have positive : 0 ≤ -d.nanos := Int.neg_nonneg_of_nonpos negative
    rw [← Int.tdiv_eq_ediv_of_nonneg positive, ← Int.tmod_eq_emod_of_nonneg positive, Int.neg_tdiv,
      Int.neg_tmod, Int.neg_neg, Int.neg_neg]
    exact .inr ⟨negative, rfl, rfl⟩

end Duration

namespace Instant

/-- The nanosecond since the beginning of 1970, where a leap second takes the place of the next. -/
def place (t : Instant) : Int := t.seconds * 1000000000 + t.nanos

def TooEarly (t : Instant) (d : Duration) : Prop := t.place + d.nanos < first.place

instance (t : Instant) (d : Duration) : Decidable (t.TooEarly d) :=
  inferInstanceAs (Decidable (_ < _))

/-- The sum of the two lies after all instants, but perhaps a leap second. -/
def TooLate (t : Instant) (d : Duration) : Prop := last.place < t.place + d.nanos

/-- The instant that a sum is cut to: the sum itself, or the bound that it lies beyond. -/
inductive Reaches (t : Instant) (d : Duration) : Instant → Prop
  | sum {s : Instant} : t.add? d = some s → Reaches t d s
  | early : t.add? d = none → t.TooEarly d → Reaches t d first
  | late : t.add? d = none → t.TooLate d → Reaches t d last

theorem firstSecond_eq : firstSecond = -8334601228800 := by decide

theorem lastSecond_eq : lastSecond = 8210266876799 := by decide

theorem place_first : first.place = -8334601228800000000000 := by decide

theorem place_last : last.place = 8210266876799999999999 := by decide

theorem of?_eq_none_iff {seconds : Int} {nanos : Nat} :
    of? seconds nanos = none ↔ ¬ ((firstSecond ≤ seconds ∧ seconds ≤ lastSecond) ∧
      (nanos < 10 ^ 9 ∨ nanos < 2 * 10 ^ 9 ∧ seconds % 60 = 59)) := by
  rw [of?]
  split
  next real => simp [real]
  next unreal => simp [unreal]

theorem shifted?_eq_none_iff {seconds nanos : Int} :
    shifted? seconds nanos = none ↔
      seconds * 1000000000 + nanos < first.place ∨ last.place < seconds * 1000000000 + nanos := by
  have scale : (Duration.nanosPerSecond : Int) = 1000000000 := rfl
  rw [shifted?, of?_eq_none_iff, scale, place_first, place_last, firstSecond_eq, lastSecond_eq]
  omega

variable {t s : Instant} {d : Duration}

theorem of?_within_leap (leap : 10 ^ 9 ≤ t.nanos) (short : d.seconds = 0)
    (within : t.nanos + d.subsecNanos < 2 * 10 ^ 9) :
    of? t.seconds (t.nanos + d.nanos).toNat ≠ none := by
  have bounded := t.bounded
  have counted := t.counted
  have parts := d.parts
  rw [ne_eq, of?_eq_none_iff, not_not]
  omega

theorem beyond_of_add?_eq_none (none : t.add? d = none) : t.TooEarly d ∨ t.TooLate d := by
  have leap : Duration.nanosPerSecond = 1000000000 := rfl
  have bounded := t.bounded
  have counted := t.counted
  have parts := d.parts
  rw [firstSecond_eq, lastSecond_eq] at bounded
  simp only [add?, leap] at none
  rw [TooEarly, TooLate]
  split at none
  next plain =>
    rw [place, Int.add_assoc]
    exact shifted?_eq_none_iff.mp none
  next leap =>
  rw [place, place_first, place_last]
  split at none
  next forward =>
    rw [shifted?_eq_none_iff, place_first, place_last] at none
    omega
  next notForward =>
  split at none
  next back =>
    rw [shifted?_eq_none_iff, place_first, place_last] at none
    omega
  next notBack => exact absurd none (of?_within_leap (by omega) (by omega) (by omega))

/-- Before all instants there is no sum: a leap second adds nothing on the way back. -/
theorem add?_of_tooEarly (early : t.TooEarly d) : t.add? d = none := by
  have leap : Duration.nanosPerSecond = 1000000000 := rfl
  have bounded := t.bounded
  have parts := d.parts
  have counted := t.counted
  rw [TooEarly, place, place_first] at early
  rw [firstSecond_eq, lastSecond_eq] at bounded
  simp only [add?, leap]
  split
  next plain =>
    rw [shifted?_eq_none_iff, place_first]
    omega
  next leap =>
    -- The way leads back by more than the leap second, so that the third case is the one.
    rw [if_neg (by omega), if_pos (by omega), shifted?_eq_none_iff, place_first]
    omega

/-- What takes the place of a sum: always an instant that the sum is cut to, but for early sums. -/
theorem exists_reaches (t : Instant) (d : Duration) :
    ∃ s, t.Reaches d s ∧ t.addBounded d = if t.TooEarly d then last else s := by
  rw [addBounded]
  cases sum : t.add? d with
  | some s =>
      have inside : ¬ t.TooEarly d := by
        intro early
        rw [add?_of_tooEarly early] at sum
        cases sum
      exact ⟨s, .sum sum, (if_neg inside).symm⟩
  | none =>
      by_cases early : t.TooEarly d
      · exact ⟨first, .early sum early, (if_pos early).symm⟩
      · have late := (beyond_of_add?_eq_none sum).resolve_left early
        exact ⟨last, .late sum late, (if_neg early).symm⟩

end Instant

namespace Config

theorem policy_of_parse {text : String} {c : Config} (parsed : Config.parse text = .ok c) :
    ∃ policy, c.capsules.policy = .ok policy ∧ policy.default ≤ policy.max := by
  rw [parse] at parsed
  split at parsed
  next => cases parsed
  next d _ =>
    obtain ⟨_, valid, same⟩ := Outcome.bind_eq_ok.mp parsed
    cases same
    obtain ⟨policy, read, checks⟩ := Outcome.bind_eq_ok.mp valid
    refine ⟨policy, read, ?_⟩
    split at checks
    next => cases checks
    next notAbove => exact Int.not_lt.mp notAbove

end Config

namespace ExpiryPolicy

variable {policy : ExpiryPolicy} {now usual bound : Instant}

theorem resolve_none (default : now.addBounded policy.default = usual)
    (max : now.addBounded policy.max = bound) :
    policy.resolve none now = ⟨usual.earlier bound, false⟩ := by
  rw [resolve, default, max]

theorem resolve_some (max : now.addBounded policy.max = bound) (t : Instant) :
    policy.resolve (some t) now = if bound < t then ⟨bound, true⟩ else ⟨t, false⟩ := by
  rw [resolve, max]

end ExpiryPolicy

/--
Under a valid configuration a capsule is kept for the default time or up to the instant that the
sender asks for, and no longer than the bound, unless a sum lies before all instants: the last
instant then takes the place of that sum.
-/
theorem kept_within_bound {text : String} {c : Config} (parsed : Config.parse text = .ok c) :
    ∃ policy, c.capsules.policy = .ok policy ∧ ∀ now : Instant, ∃ usual bound : Instant,
      now.Reaches policy.default usual ∧ now.Reaches policy.max bound ∧
      (¬ now.TooEarly policy.default →
        policy.resolve none now = ⟨usual.earlier bound, false⟩) ∧
      (now.TooEarly policy.default → ¬ now.TooEarly policy.max →
        policy.resolve none now = ⟨Instant.last.earlier bound, false⟩) ∧
      (¬ now.TooEarly policy.max →
        (∀ r, policy.resolve (some r) now = if bound < r then ⟨bound, true⟩ else ⟨r, false⟩) ∧
        ∀ requested, (policy.resolve requested now).expiry ≤ bound) ∧
      (now.TooEarly policy.max → policy.resolve none now = ⟨.last, false⟩ ∧
        ∀ r, policy.resolve (some r) now = if .last < r then ⟨.last, true⟩ else ⟨r, false⟩) := by
  obtain ⟨policy, read, ordered⟩ := Config.policy_of_parse parsed
  refine ⟨policy, read, fun now => ?_⟩
  -- The maximum is not below the default, so that its sum does not lie before the other.
  have both (early : now.TooEarly policy.max) : now.TooEarly policy.default :=
    Int.lt_of_le_of_lt (Int.add_le_add_left ordered now.place) early
  obtain ⟨usual, reachesUsual, default⟩ := now.exists_reaches policy.default
  obtain ⟨bound, reachesBound, max⟩ := now.exists_reaches policy.max
  refine ⟨usual, bound, reachesUsual, reachesBound, ?_, ?_, ?_, ?_⟩
  · intro inside
    rw [if_neg inside] at default
    rw [if_neg fun early => inside (both early)] at max
    exact ExpiryPolicy.resolve_none default max
  · intro early inside
    rw [if_pos early] at default
    rw [if_neg inside] at max
    exact ExpiryPolicy.resolve_none default max
  · intro inside
    rw [if_neg inside] at max
    refine ⟨ExpiryPolicy.resolve_some max, fun requested => ?_⟩
    rw [← max]
    exact policy.resolve_le requested now
  · intro early
    rw [if_pos (both early)] at default
    rw [if_pos early] at max
    exact ⟨ExpiryPolicy.resolve_none default max, ExpiryPolicy.resolve_some max⟩

def marchNoon : Instant := ⟨1740830400, 0, by decide, by decide⟩

def backdated : String :=
  "[key_capsule]\ndefault_expiration_duration = \"-P2D\"\nmax_expiration_duration = \"-P1D\""

theorem backdated_kept_within_bound :
    ∃ c policy bound, Config.parse backdated = .ok c ∧ c.capsules.policy = .ok policy ∧
      marchNoon.Reaches policy.max bound ∧
      ∀ requested, (policy.resolve requested marchNoon).expiry ≤ bound := by
  let c : Config := { Config.standard with capsules := ⟨"-P2D", "-P1D", .standard⟩ }
  have parsed : Config.parse backdated = .ok c := by decide +kernel
  have ⟨policy, read, kept⟩ := kept_within_bound parsed
  have past : c.capsules.policy.toOption.map (·.max.nanos) = some (-86400000000000) := by
    decide +kernel
  rw [read] at past
  have max : policy.max.nanos = -86400000000000 := Option.some.inj past
  have ⟨_, bound, _, reaches, _, _, within, _⟩ := kept marchNoon
  have inside : ¬ marchNoon.TooEarly policy.max := by
    rw [Instant.TooEarly, max]
    decide
  exact ⟨c, policy, bound, parsed, read, reaches, (within inside).2⟩

def prehistoric : String :=
  "[key_capsule]\ndefault_expiration_duration = \"-P100000000D\"\n" ++
    "max_expiration_duration = \"-P100000000D\""

/-- Both sums are cut to the first instant, and yet capsules are kept until the last one. -/
theorem prehistoric_kept_forever :
    ∃ c d, Config.parse prehistoric = .ok c ∧ c.capsules.policy = .ok ⟨d, d⟩ ∧
      marchNoon.Reaches d .first ∧ Instant.first < marchNoon ∧
      ExpiryPolicy.resolve ⟨d, d⟩ none marchNoon = ⟨.last, false⟩ ∧
      ExpiryPolicy.resolve ⟨d, d⟩ (some marchNoon) marchNoon = ⟨marchNoon, false⟩ := by
  let d : Duration := ⟨-8640000000000000000000, by decide⟩
  let c : Config :=
    { Config.standard with capsules := ⟨"-P100000000D", "-P100000000D", .standard⟩ }
  have early : marchNoon.TooEarly d := by decide
  have none := Instant.add?_of_tooEarly early
  have forever : marchNoon.addBounded d = .last := by
    rw [Instant.addBounded, none]
    rfl
  let policy : ExpiryPolicy := ⟨d, d⟩
  have usual : marchNoon.addBounded policy.default = .last := forever
  have bound : marchNoon.addBounded policy.max = .last := forever
  refine ⟨c, d, by decide +kernel, by decide +kernel, .early none early, by decide, ?_, ?_⟩
  · exact ExpiryPolicy.resolve_none usual bound
  · exact ExpiryPolicy.resolve_some bound marchNoon

end SealedContainer
