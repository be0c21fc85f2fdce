import SealedContainer.Proofs.Duration.Value
import SealedContainer.Proofs.Text

/-!
Durations computed in words of 64 and of 32 bits. Main statements: `parseInWords_eq`, `parse_exact`.
No word overflows on the way from a text to its duration, and what comes out is the exact value of
the text, if its numbers and sums are in range.
-/

namespace SealedContainer

def word? (bits : Nat) (n : Int) : Option Int :=
  if -(2 ^ (bits - 1)) ≤ n ∧ n < 2 ^ (bits - 1) then some n else none

/-- A length of time as a machine holds it: seconds, rounded down, and nanoseconds. -/
structure Span where
  seconds : Int
  nanos : Int
  deriving DecidableEq, Repr

namespace Span

def perSecond : Int := 1000000000

def least : Span := ⟨-9223372036854776, 193000000⟩

def greatest : Span := ⟨9223372036854775, 807000000⟩

def OutOfRange (seconds nanos : Int) : Prop :=
  seconds < least.seconds ∨ greatest.seconds < seconds ∨ perSecond ≤ nanos ∨
    seconds = greatest.seconds ∧ greatest.nanos < nanos ∨
    seconds = least.seconds ∧ nanos < least.nanos

instance (seconds nanos : Int) : Decidable (OutOfRange seconds nanos) :=
  inferInstanceAs (Decidable (_ ∨ _))

def new? (seconds nanos : Int) : Option Span :=
  if OutOfRange seconds nanos then none else some ⟨seconds, nanos⟩

def ofUnits? (unit n : Int) : Option Span := do new? (← word? 64 (n * unit)) 0

def ofNanos (n : Int) : Span := ⟨n / perSecond, n % perSecond⟩

/-- The sum of two spans, which may be out of range. Nothing is returned when a word overflows. -/
def plus (a b : Span) : Option (Option Span) := do
  let seconds ← word? 64 (a.seconds + b.seconds)
  let nanos ← word? 32 (a.nanos + b.nanos)
  if perSecond ≤ nanos then
    return new? (← word? 64 (seconds + 1)) (← word? 32 (nanos - perSecond))
  else return new? seconds nanos

def neg (a : Span) : Option Span := do
  let seconds ← word? 64 (-a.seconds)
  if a.nanos = 0 then return ⟨seconds, 0⟩
  else return ⟨← word? 64 (seconds - 1), ← word? 32 (perSecond - a.nanos)⟩

def ofDuration (d : Duration) : Span := ofNanos d.nanos

/-! ## Spans stand for durations -/

theorem word?_of_fits {bits : Nat} {n : Int} (fits : -(2 ^ (bits - 1)) ≤ n ∧ n < 2 ^ (bits - 1)) :
    word? bits n = some n := if_pos fits

theorem limit_eq : Duration.limit = 9223372036854775807000000 := by decide

theorem outOfRange_iff {seconds nanos : Int} (small : 0 ≤ nanos ∧ nanos < perSecond) :
    OutOfRange seconds nanos ↔
      ¬ (-Duration.limit ≤ seconds * perSecond + nanos ∧
        seconds * perSecond + nanos ≤ Duration.limit) := by
  simp only [OutOfRange, perSecond, least, greatest, limit_eq] at small ⊢
  omega

theorem new?_eq {seconds nanos : Int} (small : 0 ≤ nanos ∧ nanos < perSecond) :
    new? seconds nanos = (Duration.ofNanos? (seconds * perSecond + nanos)).map ofDuration := by
  rw [new?, Duration.ofNanos?]
  by_cases inside : -Duration.limit ≤ seconds * perSecond + nanos ∧
      seconds * perSecond + nanos ≤ Duration.limit
  · rw [if_neg ((outOfRange_iff small).not.mpr (not_not.mpr inside)), dif_pos inside,
      Option.map_some, ofDuration, ofNanos, Option.some.injEq, mk.injEq]
    simp only [perSecond] at small ⊢
    omega
  · rw [if_pos ((outOfRange_iff small).mpr inside), dif_neg inside]
    rfl

theorem ofUnits?_eq (unit n : Int) :
    ofUnits? unit n = (Duration.ofNanos? (n * unit * 10 ^ 9)).map ofDuration := by
  have small : (0 : Int) ≤ 0 ∧ 0 < perSecond := by decide
  rw [ofUnits?]
  generalize n * unit = seconds
  rw [word?]
  split
  next =>
    rw [Option.bind_eq_bind, Option.bind_some, new?_eq small, Int.add_zero, perSecond]
    rfl
  next overflow =>
    -- A product that overflows is out of range in any case.
    have outside : Duration.ofNanos? (seconds * 10 ^ 9) = none :=
      dif_neg (by rw [limit_eq]; omega)
    rw [outside]
    rfl

theorem words_ofDuration (d : Duration) :
    (-9223372036854776 ≤ (ofDuration d).seconds ∧ (ofDuration d).seconds ≤ 9223372036854775) ∧
      (0 ≤ (ofDuration d).nanos ∧ (ofDuration d).nanos < perSecond) ∧
      (ofDuration d).seconds * perSecond + (ofDuration d).nanos = d.nanos := by
  have bounded := d.bounded
  rw [limit_eq] at bounded
  simp only [ofDuration, ofNanos, perSecond]
  omega

theorem plus_ofDuration (a b : Duration) :
    plus (ofDuration a) (ofDuration b) = some ((a.add? b).map ofDuration) := by
  have ⟨seconds, nanos, whole⟩ := words_ofDuration a
  have ⟨seconds', nanos', whole'⟩ := words_ofDuration b
  rw [Duration.add?, ← whole, ← whole']
  generalize ofDuration a = s at seconds nanos
  generalize ofDuration b = t at seconds' nanos'
  have second : word? 64 (s.seconds + t.seconds) = some (s.seconds + t.seconds) :=
    word?_of_fits (by omega)
  have nano : word? 32 (s.nanos + t.nanos) = some (s.nanos + t.nanos) :=
    word?_of_fits (by simp only [perSecond] at nanos nanos'; omega)
  simp only [plus, second, nano, Option.bind_eq_bind, Option.bind_some, Option.pure_def]
  split
  next carry =>
    have second : word? 64 (s.seconds + t.seconds + 1) = some (s.seconds + t.seconds + 1) :=
      word?_of_fits (by omega)
    have nano : word? 32 (s.nanos + t.nanos - perSecond) = some (s.nanos + t.nanos - perSecond) :=
      word?_of_fits (by simp only [perSecond] at nanos nanos' ⊢; omega)
    rw [second, nano, Option.bind_some, Option.bind_some, new?_eq (by omega)]
    congr 3
    simp only [perSecond]
    omega
  next within =>
    rw [new?_eq (by omega)]
    congr 3
    simp only [perSecond]
    omega

theorem neg_ofDuration (d : Duration) : neg (ofDuration d) = some (ofDuration (-d)) := by
  have ⟨seconds, nanos, whole⟩ := words_ofDuration d
  have negated : ofDuration (-d) = ofNanos (-d.nanos) := rfl
  rw [negated, ← whole]
  generalize ofDuration d = s at seconds nanos
  have second : word? 64 (-s.seconds) = some (-s.seconds) := word?_of_fits (by omega)
  simp only [neg, second, Option.bind_eq_bind, Option.bind_some, Option.pure_def]
  split
  next whole =>
    rw [whole, ofNanos, Option.some.injEq, mk.injEq, perSecond]
    omega
  next broken =>
    have second : word? 64 (-s.seconds - 1) = some (-s.seconds - 1) := word?_of_fits (by omega)
    have nano : word? 32 (perSecond - s.nanos) = some (perSecond - s.nanos) :=
      word?_of_fits (by simp only [perSecond] at nanos ⊢; omega)
    rw [second, nano, Option.bind_some, Option.bind_some, ofNanos, Option.some.injEq, mk.injEq]
    simp only [perSecond] at nanos ⊢
    omega

def step (sum : Option (Option Span)) (part : Option Span) : Option (Option Span) := do
  match ← sum, part with
  | some a, some b => plus a b
  | _, _ => return none

theorem step_ofDuration (a b : Option Duration) :
    step (some (a.map ofDuration)) (b.map ofDuration) =
      some ((do (← a).add? (← b)).map ofDuration) := by
  cases a with
  | none => rfl
  | some a =>
      cases b with
      | none => rfl
      | some b => exact plus_ofDuration a b

theorem foldl_step (parts : List Int) (sum : Option Duration) :
    (parts.map fun part => (Duration.ofNanos? part).map ofDuration).foldl step
        (some (sum.map ofDuration)) =
      some ((parts.foldl DurationText.add sum).map ofDuration) := by
  induction parts generalizing sum with
  | nil => rfl
  | cons part rest ih =>
      rw [List.map_cons, List.foldl_cons, step_ofDuration]
      exact ih (DurationText.add sum part)

def total (days hours minutes seconds nanos : Int) : Option (Option Span) :=
  [ofUnits? 3600 hours, ofUnits? 60 minutes, ofUnits? 1 seconds, some (ofNanos nanos)].foldl step
    (some (ofUnits? 86400 days))

theorem total?_cons (part : Int) (rest : List Int) :
    DurationText.total? (part :: rest) = rest.foldl DurationText.add (Duration.ofNanos? part) := by
  have first : DurationText.add (some Duration.zero) part = Duration.ofNanos? part := by
    rw [DurationText.add]
    cases read : Duration.ofNanos? part with
    | none => rfl
    | some d =>
        calc Duration.zero.add? d
            = Duration.ofNanos? (0 + d.nanos) := rfl
          _ = some d := by rw [zero_add, Duration.ofNanos?_nanos]
  have fold (parts : List Int) :
      DurationText.total? parts = parts.foldl DurationText.add (some Duration.zero) := rfl
  rw [fold, List.foldl_cons, first]

theorem total_eq {days hours minutes seconds nanos : Int} (short : |nanos| < 10 ^ 9) :
    total days hours minutes seconds nanos =
      some ((DurationText.total? [days * 86400 * 10 ^ 9, hours * 3600 * 10 ^ 9,
        minutes * 60 * 10 ^ 9, seconds * 10 ^ 9, nanos]).map ofDuration) := by
  have inside : -Duration.limit ≤ nanos ∧ nanos ≤ Duration.limit := by
    rw [abs_lt] at short
    rw [limit_eq]
    omega
  have last : some (ofNanos nanos) = (Duration.ofNanos? nanos).map ofDuration := by
    rw [Duration.ofNanos?, dif_pos inside]
    rfl
  have ones : ofUnits? 1 seconds = (Duration.ofNanos? (seconds * 10 ^ 9)).map ofDuration := by
    rw [ofUnits?_eq, mul_one]
  rw [total, ofUnits?_eq, ofUnits?_eq, ofUnits?_eq, ones, last, total?_cons, ← foldl_step]
  simp only [List.map_cons, List.map_nil]

end Span

/-! ## From the text -/

/-- What is computed in words: nothing if one overflows, or an error that is found. -/
abbrev InWords := ExceptT DurationError Option

namespace InWords

def orError {α : Type} (e : DurationError) : Option α → InWords α
  | some a => pure a
  | none => throw e

@[simp] theorem orError_some {α : Type} (e : DurationError) (a : α) : orError e (some a) = pure a :=
  rfl

@[simp] theorem lift_some {α : Type} (a : α) : (liftM (some a) : InWords α) = pure a := rfl

end InWords

namespace DurationText

def fractionInWords (t : DurationText) (invalid : DurationError) : InWords Int := do
  if t.fraction = [] then return 0
  let digits := t.fraction ++ List.replicate (9 - t.fraction.length) '0'
  let n ← InWords.orError invalid (word? 64 (Decimal.value digits))
  if t.seconds.any (·.negative) then word? 64 (-n) else return n

theorem abs_fractionNanos_lt {t : DurationText} (short : t.fraction.length ≤ 9)
    (digits : ∀ c ∈ t.fraction, c.isDigit = true) : |t.fractionNanos| < 10 ^ 9 := by
  have small : Decimal.value t.fraction * 10 ^ (9 - t.fraction.length) < 10 ^ 9 :=
    calc Decimal.value t.fraction * 10 ^ (9 - t.fraction.length)
        < 10 ^ t.fraction.length * 10 ^ (9 - t.fraction.length) :=
          Nat.mul_lt_mul_of_pos_right (Decimal.value_lt digits) (by positivity)
      _ = 10 ^ 9 := by rw [← pow_add, Nat.add_sub_cancel' short]
  have size : |(Decimal.value t.fraction * 10 ^ (9 - t.fraction.length) : Int)| < 10 ^ 9 := by
    rw [abs_of_nonneg (by positivity)]
    exact_mod_cast small
  simp only [fractionNanos]
  split
  · rw [abs_neg]
    exact size
  · exact size

theorem fractionInWords_eq {t : DurationText} (short : t.fraction.length ≤ 9)
    (digits : ∀ c ∈ t.fraction, c.isDigit = true) (invalid : DurationError) :
    t.fractionInWords invalid = pure t.fractionNanos := by
  have size := abs_lt.mp (abs_fractionNanos_lt short digits)
  have padded := Decimal.value_append_zeros t.fraction (9 - t.fraction.length)
  simp only [fractionNanos_eq] at size ⊢
  simp only [fractionInWords, padded, Nat.cast_mul, Nat.cast_pow, Nat.cast_ofNat]
  by_cases empty : t.fraction = []
  · simp [empty, Decimal.value]
  · rw [if_neg empty]
    generalize (Decimal.value t.fraction : Int) * 10 ^ (9 - t.fraction.length) = n at size ⊢
    split at size
    next negative =>
      have fits : word? 64 n = some n := Span.word?_of_fits (by omega)
      have fits' : word? 64 (-n) = some (-n) := Span.word?_of_fits (by omega)
      simp [negative, fits, fits']
    next positive =>
      have fits : word? 64 n = some n := Span.word?_of_fits (by omega)
      simp [positive, fits]

end DurationText

def parseInWords (text : String) : InWords Span := do
  let invalid := DurationError.malformed text
  let shape ← InWords.orError invalid (DurationText.read? (trimmed text))
  let seconds ← InWords.orError invalid (DurationText.number? shape.seconds)
  let nanos ← shape.fractionInWords invalid
  let days ← InWords.orError invalid (DurationText.number? shape.days)
  let hours ← InWords.orError invalid (DurationText.number? shape.hours)
  let minutes ← InWords.orError invalid (DurationText.number? shape.minutes)
  let total ← Span.total days hours minutes seconds nanos
  let total ← InWords.orError (.outOfRange text) total
  if shape.negative then total.neg else return total

theorem parseInWords_eq (text : String) :
    (parseInWords text).run = some ((Duration.parse text).map Span.ofDuration) := by
  cases read : DurationText.read? (trimmed text) with
  | none =>
      simp only [parseInWords, Duration.parse, read]
      rfl
  | some t =>
      have form := DurationText.read?_eq_some_iff.mp read
      have fraction := DurationText.fractionInWords_eq form.short form.digits (.malformed text)
      have short := DurationText.abs_fractionNanos_lt form.short form.digits
      simp only [parseInWords, Duration.parse, read, DurationText.numbers?, InWords.orError_some,
        pure_bind, fraction]
      cases DurationText.number? t.seconds with
      | none => rfl
      | some seconds =>
      cases DurationText.number? t.days with
      | none => rfl
      | some days =>
      cases DurationText.number? t.hours with
      | none => rfl
      | some hours =>
      cases DurationText.number? t.minutes with
      | none => rfl
      | some minutes =>
      simp only [InWords.orError_some, pure_bind, Span.total_eq short, InWords.lift_some,
        Option.bind_eq_bind, Option.bind_some, Option.pure_def]
      cases DurationText.total? _ with
      | none => rfl
      | some total =>
          simp only [Option.map_some, InWords.orError_some, pure_bind, Span.neg_ofDuration]
          split <;> rfl

/--
A duration text with white space around it is read as its exact value, unless a number does not fit
or a sum is out of range, and no word overflows while it is computed.
-/
theorem parse_exact {t : DurationText} {text : String} (front body back : String)
    (split : text = front ++ body ++ back) (form : t.Form .cased body.toList)
    (blank : ∀ c ∈ front.toList ++ back.toList, isBlank c = true) :
    (t.Countable → t.Bounded →
      ∃ d, Duration.parse text = .ok d ∧ (d.nanos : ℚ) / 10 ^ 9 = t.value) ∧
    (¬ t.Countable → Duration.parse text = .error (.malformed text)) ∧
    (t.Countable → ¬ t.Bounded → Duration.parse text = .error (.outOfRange text)) ∧
    (parseInWords text).run = some ((Duration.parse text).map Span.ofDuration) := by
  have lenient : t.Form .lenient (trimmed text) := by
    rw [split, trimmed_around blank form.solid]
    exact form.lenient
  refine ⟨fun countable bounded => ?_, DurationText.parse_of_uncountable lenient,
    DurationText.parse_of_unbounded lenient, parseInWords_eq text⟩
  have ⟨d, parsed, value⟩ := DurationText.parse_of_bounded lenient countable bounded
  refine ⟨d, parsed, ?_⟩
  rw [value]
  exact mul_div_cancel_left₀ _ (by norm_num)

/-- Half a second: two signs that cancel, one of them that of a zero. -/
def halfSecond : DurationText := ⟨true, none, true, none, none, some ⟨true, ['0']⟩, ['5']⟩

theorem half_second_read :
    ∃ d, Duration.parse " -PT-0.5S\n" = .ok d ∧ (d.nanos : ℚ) / 10 ^ 9 = 1 / 2 := by
  have form : halfSecond.Form .cased "-PT-0.5S".toList :=
    (DurationText.read?_eq_some_iff.mp (by decide)).cased (by decide)
  have parts : halfSecond.parts = [0, 0, 0, 0, -(1 / 2)] := by
    have five : Decimal.value ['5'] = 5 := by decide
    have zero : SignedDigits.value ⟨true, ['0']⟩ = 0 := by decide
    norm_num [halfSecond, DurationText.parts, DurationText.count, DurationText.fractionPart, five,
      zero]
  have countable : halfSecond.Countable := by
    unfold DurationText.Countable
    decide
  have bounded : halfSecond.Bounded := by
    rw [DurationText.Bounded, parts]
    constructor
    · norm_num [Duration.longest]
    · intro k
      rcases k with _ | _ | _ | _ | _ | k <;> norm_num [Duration.longest]
  have value : halfSecond.value = 1 / 2 := by
    rw [DurationText.value, parts, if_pos (by decide)]
    norm_num
  rw [← value]
  have blank : ∀ c ∈ " ".toList ++ "\n".toList, isBlank c = true := List.all_eq_true.mp rfl
  exact (parse_exact " " "-PT-0.5S" "\n" (by decide) form blank).1 countable bounded

end SealedContainer
