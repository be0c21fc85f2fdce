import Mathlib.Algebra.BigOperators.Ring.Finset
import Mathlib.Algebra.BigOperators.Ring.List
import Mathlib.Algebra.Order.Field.Rat
import Mathlib.Algebra.Order.Ring.Abs
import Mathlib.Data.Int.Cast.Lemmas
import Mathlib.Tactic.NormNum
import Mathlib.Tactic.Positivity
import Mathlib.Tactic.Ring
import SealedContainer.Bytes
import SealedContainer.Proofs.Duration.Form

/-!
What duration texts stand for. Main statements: `parse_of_bounded`, `only_durations_parsed`. A text
of the form of a duration has an exact value in seconds, which is what is read unless a number or a
sum on the way is too large; no other text is read, and a long s is all that passes for another
letter.
-/

namespace SealedContainer

namespace Duration

/-- The longest duration in seconds: the most milliseconds that a signed 64-bit number counts. -/
def longest : ℚ := (2 ^ 63 - 1) / 1000

theorem abs_cast_le_iff {n : Int} : |(n : ℚ)| ≤ (limit : ℚ) ↔ |n| ≤ limit := by
  rw [← Int.cast_abs, Int.cast_le]

theorem abs_scaled_le_iff {seconds : ℚ} :
    |10 ^ 9 * seconds| ≤ (limit : ℚ) ↔ |seconds| ≤ longest := by
  have scale : |(10 ^ 9 : ℚ)| = 10 ^ 9 := by norm_num
  have bound : ((limit : Int) : ℚ) = 10 ^ 9 * longest := by norm_num [limit, longest]
  rw [abs_mul, bound, scale]
  exact mul_le_mul_iff_right₀ (by norm_num)

theorem abs_nanos_le (d : Duration) : |d.nanos| ≤ limit := abs_le.mpr d.bounded

theorem eq_of_nanos {a b : Duration} (same : a.nanos = b.nanos) : a = b := by
  cases a
  cases b
  congr

theorem ofNanos?_eq_some_iff {n : Int} {d : Duration} :
    ofNanos? n = some d ↔ |n| ≤ limit ∧ d.nanos = n := by
  rw [ofNanos?, abs_le]
  constructor
  · intro found
    split at found
    next bounds =>
      cases found
      exact ⟨bounds, rfl⟩
    next => cases found
  · rintro ⟨bounds, rfl⟩
    exact dif_pos bounds

end Duration

namespace DurationText

/-! ## Sums -/

def add (sum : Option Duration) (part : Int) : Option Duration := do
  (← sum).add? (← Duration.ofNanos? part)

theorem add_eq_some_iff {a d : Duration} {part : Int} :
    add (some a) part = some d ↔
      |part| ≤ Duration.limit ∧ |a.nanos + part| ≤ Duration.limit ∧ d.nanos = a.nanos + part := by
  simp only [add, Option.bind_eq_bind, Option.bind_some, Option.bind_eq_some_iff,
    Duration.ofNanos?_eq_some_iff, Duration.add?]
  constructor
  · rintro ⟨b, ⟨fits, rfl⟩, inside, sum⟩
    exact ⟨fits, inside, sum⟩
  · rintro ⟨fits, inside, sum⟩
    exact ⟨⟨part, abs_le.mp fits⟩, ⟨fits, rfl⟩, inside, sum⟩

theorem foldl_add_none (parts : List Int) : parts.foldl add none = none := by
  induction parts with
  | nil => rfl
  | cons part rest ih => exact ih

theorem foldl_add_cons {a d : Duration} {part : Int} {rest : List Int} :
    (part :: rest).foldl add (some a) = some d ↔
      ∃ b, add (some a) part = some b ∧ rest.foldl add (some b) = some d := by
  rw [List.foldl_cons]
  cases add (some a) part with
  | none => simp [foldl_add_none]
  | some b => simp

theorem forall_sums_cons {p : Int → Prop} {a part : Int} {rest : List Int} :
    (∀ k, p (a + ((part :: rest).take k).sum)) ↔
      p a ∧ ∀ k, p (a + part + (rest.take k).sum) := by
  constructor
  · intro all
    exact ⟨by simpa using all 0, fun k => by simpa [add_assoc] using all (k + 1)⟩
  · rintro ⟨start, next⟩ k
    cases k with
    | zero => simpa using start
    | succ k => simpa [add_assoc] using next k

/-- A sum comes about if every part is in range and every sum on the way. -/
theorem foldl_add_eq_some_iff {a d : Duration} {parts : List Int} :
    parts.foldl add (some a) = some d ↔
      (∀ part ∈ parts, |part| ≤ Duration.limit) ∧
        (∀ k, |a.nanos + (parts.take k).sum| ≤ Duration.limit) ∧ d.nanos = a.nanos + parts.sum := by
  induction parts generalizing a with
  | nil =>
      simp only [List.foldl_nil, Option.some.injEq, List.not_mem_nil, false_implies, implies_true,
        List.take_nil, List.sum_nil, add_zero, true_and]
      exact ⟨fun same => ⟨fun _ => a.abs_nanos_le, same ▸ rfl⟩,
        fun same => (Duration.eq_of_nanos same.2).symm⟩
  | cons part rest ih =>
      rw [foldl_add_cons, List.forall_mem_cons, List.sum_cons, ← add_assoc,
        forall_sums_cons (p := fun sum => |sum| ≤ Duration.limit)]
      constructor
      · rintro ⟨b, step, done⟩
        obtain ⟨fits, _, next⟩ := add_eq_some_iff.mp step
        obtain ⟨others, sums, total⟩ := ih.mp done
        rw [next] at sums total
        exact ⟨⟨fits, others⟩, ⟨a.abs_nanos_le, sums⟩, total⟩
      · rintro ⟨⟨fits, others⟩, ⟨_, sums⟩, total⟩
        have inside : |a.nanos + part| ≤ Duration.limit := by simpa using sums 0
        let b : Duration := ⟨a.nanos + part, abs_le.mp inside⟩
        exact ⟨b, add_eq_some_iff.mpr ⟨fits, inside, rfl⟩, ih.mpr ⟨others, sums, total⟩⟩

theorem total?_eq_some_iff {parts : List Int} {d : Duration} :
    total? parts = some d ↔
      (∀ part ∈ parts, |part| ≤ Duration.limit) ∧
        (∀ k, |(parts.take k).sum| ≤ Duration.limit) ∧ d.nanos = parts.sum := by
  have fold : total? parts = parts.foldl add (some Duration.zero) := rfl
  have nothing : Duration.zero.nanos = 0 := rfl
  simp only [fold, foldl_add_eq_some_iff, nothing, zero_add]

/-! ## The value of a text -/

def numbers (t : DurationText) : List SignedDigits :=
  [t.days, t.hours, t.minutes, t.seconds].filterMap id

def count (part : Option SignedDigits) : Int := (part.map SignedDigits.value).getD 0

variable (t : DurationText)

/-- What stands behind the point, in seconds. It has the sign that the seconds are written with. -/
def fractionPart : ℚ :=
  let part : ℚ := Decimal.value t.fraction / 10 ^ t.fraction.length
  if t.seconds.any (·.negative) then -part else part

def parts : List ℚ :=
  [86400 * count t.days, 3600 * count t.hours, 60 * count t.minutes, count t.seconds,
    t.fractionPart]

def value : ℚ := if t.negative then -t.parts.sum else t.parts.sum

def Countable : Prop := ∀ n ∈ t.numbers, -(2 ^ 63) ≤ n.value ∧ n.value < 2 ^ 63

/-- Each part is in range, and so is every sum on the way. -/
def Bounded : Prop :=
  (∀ part ∈ t.parts, |part| ≤ Duration.longest) ∧
    ∀ k, |(t.parts.take k).sum| ≤ Duration.longest

def nanoParts : List Int :=
  [count t.days * 86400 * 10 ^ 9, count t.hours * 3600 * 10 ^ 9, count t.minutes * 60 * 10 ^ 9,
    count t.seconds * 10 ^ 9, t.fractionNanos]

theorem number?_eq_some_iff {part : Option SignedDigits} {n : Int} :
    number? part = some n ↔
      (∀ digits ∈ part, -(2 ^ 63) ≤ digits.value ∧ digits.value < 2 ^ 63) ∧ n = count part := by
  cases part with
  | none => simp [number?, count, eq_comm]
  | some digits => simp [number?, count, SignedDigits.value?, eq_comm]

theorem numbers?_eq_some_iff {t : DurationText} {parts : List Int} :
    t.numbers? = some parts ↔ t.Countable ∧ parts = t.nanoParts := by
  have all : t.Countable ↔ ∀ part ∈ [t.days, t.hours, t.minutes, t.seconds],
      ∀ digits ∈ part, -(2 ^ 63) ≤ digits.value ∧ digits.value < 2 ^ 63 := by
    simp only [Countable, numbers, List.mem_filterMap, id_eq]
    exact ⟨fun fit part member digits there => fit digits ⟨part, member, there⟩,
      fun fit digits ⟨part, member, there⟩ => fit part member digits there⟩
  rw [all]
  simp only [numbers?, Option.bind_eq_bind, Option.bind_eq_some_iff, number?_eq_some_iff,
    Option.pure_def, Option.some.injEq, List.forall_mem_cons, List.not_mem_nil, false_implies,
    implies_true, and_true, nanoParts]
  constructor
  · rintro ⟨_, ⟨seconds, rfl⟩, _, ⟨days, rfl⟩, _, ⟨hours, rfl⟩, _, ⟨minutes, rfl⟩, rfl⟩
    exact ⟨⟨days, hours, minutes, seconds⟩, rfl⟩
  · rintro ⟨⟨days, hours, minutes, seconds⟩, rfl⟩
    exact ⟨_, ⟨seconds, rfl⟩, _, ⟨days, rfl⟩, _, ⟨hours, rfl⟩, _, ⟨minutes, rfl⟩, rfl⟩

theorem fractionNanos_eq :
    t.fractionNanos =
      let n : Int := Decimal.value t.fraction * 10 ^ (9 - t.fraction.length)
      if t.seconds.any (·.negative) then -n else n := by
  rw [fractionNanos]
  cases t.seconds <;> rfl

/-- Nine digits are enough, so that a nanosecond is the smallest part. -/
theorem cast_fractionNanos (short : t.fraction.length ≤ 9) :
    (t.fractionNanos : ℚ) = 10 ^ 9 * t.fractionPart := by
  have scale : (10 ^ 9 : ℚ) = 10 ^ (9 - t.fraction.length) * 10 ^ t.fraction.length := by
    rw [← pow_add, Nat.sub_add_cancel short]
  have unsigned : ((Decimal.value t.fraction * 10 ^ (9 - t.fraction.length) : Int) : ℚ) =
      10 ^ 9 * (Decimal.value t.fraction / 10 ^ t.fraction.length) := by
    rw [scale, mul_assoc, mul_div_cancel₀ _ (by positivity)]
    push_cast
    exact mul_comm _ _
  rw [fractionNanos_eq, fractionPart]
  split
  · rw [Int.cast_neg, unsigned, mul_neg]
  · exact unsigned

theorem map_nanoParts (short : t.fraction.length ≤ 9) :
    t.nanoParts.map (fun n : Int => (n : ℚ)) = t.parts.map (10 ^ 9 * ·) := by
  simp only [nanoParts, parts, List.map_cons, List.map_nil, cast_fractionNanos t short]
  push_cast
  ring_nf

theorem cast_sum_take (short : t.fraction.length ≤ 9) (k : Nat) :
    (((t.nanoParts.take k).sum : Int) : ℚ) = 10 ^ 9 * (t.parts.take k).sum := by
  calc (((t.nanoParts.take k).sum : Int) : ℚ)
      = ((t.nanoParts.map (fun n : Int => (n : ℚ))).take k).sum := by
        rw [Int.cast_list_sum, List.map_take]
    _ = ((t.parts.take k).map (10 ^ 9 * ·)).sum := by rw [map_nanoParts t short, List.map_take]
    _ = 10 ^ 9 * (t.parts.take k).sum := by
        simpa using List.sum_map_mul_left (t.parts.take k) id (10 ^ 9)

theorem cast_sum (short : t.fraction.length ≤ 9) :
    ((t.nanoParts.sum : Int) : ℚ) = 10 ^ 9 * t.parts.sum :=
  cast_sum_take t short 5

theorem bounded_iff (short : t.fraction.length ≤ 9) :
    t.Bounded ↔ (∀ part ∈ t.nanoParts, |part| ≤ Duration.limit) ∧
      ∀ k, |(t.nanoParts.take k).sum| ≤ Duration.limit := by
  have each :=
    calc (∀ part ∈ t.parts, |part| ≤ Duration.longest)
        ↔ ∀ part ∈ t.parts.map (10 ^ 9 * ·), |part| ≤ (Duration.limit : ℚ) := by
          simp only [List.forall_mem_map, Duration.abs_scaled_le_iff]
      _ ↔ ∀ part ∈ t.nanoParts.map (fun n : Int => (n : ℚ)), |part| ≤ (Duration.limit : ℚ) := by
          rw [map_nanoParts t short]
      _ ↔ ∀ part ∈ t.nanoParts, |part| ≤ Duration.limit := by
          simp only [List.forall_mem_map, Duration.abs_cast_le_iff]
  have sums (k : Nat) :
      |(t.parts.take k).sum| ≤ Duration.longest ↔ |(t.nanoParts.take k).sum| ≤ Duration.limit := by
    rw [← Duration.abs_cast_le_iff, cast_sum_take t short, Duration.abs_scaled_le_iff]
  exact and_congr each (forall_congr' sums)

/-! ## What is read -/

section Reading

variable {t : DurationText} {text : String} (form : t.Form .lenient (trimmed text))

include form

theorem parse_of_bounded (countable : t.Countable) (bounded : t.Bounded) :
    ∃ d : Duration, Duration.parse text = .ok d ∧ (d.nanos : ℚ) = 10 ^ 9 * t.value := by
  obtain ⟨each, sums⟩ := (bounded_iff t form.short).mp bounded
  have inside : |t.nanoParts.sum| ≤ Duration.limit := sums 5
  have summed : total? t.nanoParts = some ⟨t.nanoParts.sum, abs_le.mp inside⟩ :=
    total?_eq_some_iff.mpr ⟨each, sums, rfl⟩
  have counted : t.numbers? = some t.nanoParts := numbers?_eq_some_iff.mpr ⟨countable, rfl⟩
  simp only [Duration.parse, read?_eq_some_iff.mpr form, counted, summed, value]
  refine ⟨_, rfl, ?_⟩
  split
  · rw [Duration.nanos_neg, Int.cast_neg, mul_neg, cast_sum t form.short]
  · exact cast_sum t form.short

theorem parse_of_uncountable (uncountable : ¬ t.Countable) :
    Duration.parse text = .error (.malformed text) := by
  have none : t.numbers? = none := Option.eq_none_iff_forall_ne_some.mpr fun _ counted =>
    uncountable (numbers?_eq_some_iff.mp counted).1
  simp only [Duration.parse, read?_eq_some_iff.mpr form, none]
  rfl

theorem parse_of_unbounded (countable : t.Countable) (unbounded : ¬ t.Bounded) :
    Duration.parse text = .error (.outOfRange text) := by
  have counted : t.numbers? = some t.nanoParts := numbers?_eq_some_iff.mpr ⟨countable, rfl⟩
  have none : total? t.nanoParts = none := Option.eq_none_iff_forall_ne_some.mpr fun _ summed =>
    have ⟨each, sums, _⟩ := total?_eq_some_iff.mp summed
    unbounded ((bounded_iff t form.short).mpr ⟨each, sums⟩)
  simp only [Duration.parse, read?_eq_some_iff.mpr form, counted, none]
  rfl

end Reading

theorem form_of_parse {text : String} {d : Duration} (parsed : Duration.parse text = .ok d) :
    ∃ t : DurationText, t.Form .lenient (trimmed text) ∧ t.Countable ∧ t.Bounded := by
  cases shape : read? (trimmed text) with
  | none =>
      rw [Duration.parse, shape] at parsed
      cases parsed
  | some t =>
      have form := read?_eq_some_iff.mp shape
      by_cases countable : t.Countable
      · by_cases bounded : t.Bounded
        · exact ⟨t, form, countable, bounded⟩
        · rw [parse_of_unbounded form countable bounded] at parsed
          cases parsed
      · rw [parse_of_uncountable form countable] at parsed
        cases parsed

/--
The texts that are read are those of the lenient form with numbers in range. One that is read has
the form of a duration unless there is a long s in it.
-/
theorem only_durations_parsed (text : String) :
    ((∃ d, Duration.parse text = .ok d) ↔
      ∃ t : DurationText, t.Form .lenient (trimmed text) ∧ t.Countable ∧ t.Bounded) ∧
    ∀ d, Duration.parse text = .ok d →
      ((∃ t : DurationText, t.Form .cased (trimmed text)) ↔ 'ſ' ∉ trimmed text) := by
  constructor
  · constructor
    · rintro ⟨d, parsed⟩
      exact form_of_parse parsed
    · rintro ⟨t, form, countable, bounded⟩
      have ⟨d, parsed, _⟩ := parse_of_bounded form countable bounded
      exact ⟨d, parsed⟩
  · intro d parsed
    constructor
    · rintro ⟨t, form⟩
      exact form.no_long_s
    · intro short
      have ⟨t, form, _⟩ := form_of_parse parsed
      exact ⟨t, form.cased short⟩

theorem mixed_cases_parsed :
    Duration.parse " p1dT-2H0,5s" = .ok ⟨79200500000000, by decide⟩ ∧
      ∃ t : DurationText, t.Form .cased (trimmed " p1dT-2H0,5s") := by
  have parsed : Duration.parse " p1dT-2H0,5s" = .ok ⟨79200500000000, by decide⟩ := by
    decide +kernel
  exact ⟨parsed, ((only_durations_parsed _).2 _ parsed).mpr (by decide)⟩

theorem long_s_parsed :
    Duration.parse "PT1ſ" = .ok ⟨10 ^ 9, by decide⟩ ∧
      ¬ ∃ t : DurationText, t.Form .cased (trimmed "PT1ſ") :=
  ⟨by decide +kernel, fun ⟨_, form⟩ => absurd form.no_long_s (by decide)⟩

end DurationText

end SealedContainer
