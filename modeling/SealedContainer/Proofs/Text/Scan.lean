import SealedContainer.Proofs.Text
import SealedContainer.Text.Scan

/-!
What a step takes off the front of a text that begins with what it looks for. A reader made of steps
is run by `run_bind`, one step at a time.
-/

namespace SealedContainer

/-- A run of characters that satisfy `p` does not go on into these. -/
def Stops (p : Char → Bool) (cs : List Char) : Prop := ∀ c ∈ cs.head?, p c = false

@[simp] theorem stops_nil (p : Char → Bool) : Stops p [] := nofun

@[simp] theorem stops_cons {p : Char → Bool} {c : Char} {rest : List Char} :
    Stops p (c :: rest) ↔ p c = false := by
  simp [Stops]

theorem Stops.append {p : Char → Bool} {front : List Char} (nonempty : front ≠ [])
    (solid : ∀ c ∈ front, p c = false) (rest : List Char) : Stops p (front ++ rest) := by
  cases front with
  | nil => exact absurd rfl nonempty
  | cons c front => exact stops_cons.mpr (solid c List.mem_cons_self)

theorem Stops.dropWhile {p : Char → Bool} {cs : List Char} (stops : Stops p cs) :
    cs.dropWhile p = cs := by
  cases cs with
  | nil => rfl
  | cons c rest => exact List.dropWhile_cons_of_neg (by simp [stops_cons.mp stops])

theorem Stops.takeWhile_append {p : Char → Bool} {front rest : List Char} (stops : Stops p rest)
    (all : ∀ c ∈ front, p c = true) : (front ++ rest).takeWhile p = front := by
  rw [List.takeWhile_append_of_pos all]
  cases rest with
  | nil => simp
  | cons c rest => rw [List.takeWhile_cons_of_neg (by simp [stops_cons.mp stops]), List.append_nil]

theorem Stops.digits {p : Char → Bool} (other : ∀ c, c.isDigit = true → p c = false)
    (width n : Nat) (rest : List Char) : Stops p (Decimal.digitsOf width n ++ rest) :=
  .append (Decimal.digitsOf_ne_nil width n)
    (fun c member => other c (Decimal.isDigit_of_mem_digitsOf member)) rest

theorem beq_of_isDigit {d : Char} (other : d.isDigit = false) (c : Char) (digit : c.isDigit = true) :
    (c == d) = false := by
  apply beq_eq_false_iff_ne.mpr
  rintro rfl
  exact Bool.false_ne_true (other.symm.trans digit)

theorem isBlank_of_isDigit (c : Char) (digit : c.isDigit = true) : isBlank c = false := by
  simp only [Char.isDigit, Bool.and_eq_true, decide_eq_true_eq, ge_iff_le,
    UInt32.le_iff_toNat_le] at digit
  simp only [isBlank, Bool.or_eq_false_iff, Bool.and_eq_false_iff, decide_eq_false_iff_not,
    beq_eq_false_iff_ne, ne_eq, UInt32.le_iff_toNat_le, ← UInt32.toNat_inj]
  simp only [UInt32.reduceToNat, Char.reduceVal] at digit ⊢
  omega

namespace Scan

variable {α β : Type} {p : Char → Bool} {cs rest : List Char}

theorem run_bind {a : α} {step : Scan α} (read : step.run cs = some (a, rest)) (next : α → Scan β) :
    (step >>= next).run cs = (next a).run rest := by
  rw [StateT.run_bind, read]
  rfl

theorem run_bind_none {step : Scan α} (failed : step.run cs = none) (next : α → Scan β) :
    (step >>= next).run cs = none := by
  rw [StateT.run_bind, failed]
  rfl

theorem run_map {a : α} {step : Scan α} (read : step.run cs = some (a, rest)) (f : α → β) :
    (f <$> step).run cs = some (f a, rest) := by
  rw [StateT.run_map, read]
  rfl

theorem run_map_none {step : Scan α} (failed : step.run cs = none) (f : α → β) :
    (f <$> step).run cs = none := by
  rw [StateT.run_map, failed]
  rfl

theorem run_orElse {a : α} {step other : Scan α} (read : step.run cs = some (a, rest)) :
    (step <|> other).run cs = some (a, rest) := by
  change (step.run cs <|> other.run cs) = _
  rw [read]
  rfl

theorem run_orElse_of_none {step other : Scan α} (failed : step.run cs = none) :
    (step <|> other).run cs = other.run cs := by
  change (step.run cs <|> other.run cs) = _
  rw [failed]
  rfl

theorem run_optional {a : α} {step : Scan α} (read : step.run cs = some (a, rest)) :
    (Scan.optional step).run cs = some (some a, rest) := by
  change Scan.optional step cs = _
  rw [Scan.optional, show step cs = _ from read]

theorem run_optional_none {step : Scan α} (failed : step.run cs = none) :
    (Scan.optional step).run cs = some (none, cs) := by
  change Scan.optional step cs = _
  rw [Scan.optional, show step cs = _ from failed]

theorem run_get : (get : Scan (List Char)).run cs = some (cs, cs) := rfl

theorem run_one {c : Char} (fits : p c = true) : (one p).run (c :: rest) = some (c, rest) := by
  rw [one, run_bind run_get]
  simp only [if_pos fits]
  rfl

theorem run_one_none (stops : Stops p cs) : (one p).run cs = none := by
  cases cs with
  | nil => rfl
  | cons c rest =>
      rw [one, run_bind run_get]
      simp only [stops_cons.mp stops, Bool.false_eq_true, if_false]
      rfl

theorem run_discard_none {step : Scan α} (failed : step.run cs = none) :
    (discard step).run cs = none := run_map_none failed _

theorem run_char_none {c : Char} (stops : Stops (· == c) cs) : (char c).run cs = none :=
  run_discard_none (run_one_none stops)

theorem run_discard {a : α} {step : Scan α} (read : step.run cs = some (a, rest)) :
    (discard step).run cs = some ((), rest) := by
  have mapped : discard step = (fun _ => ()) <$> step := rfl
  rw [mapped, StateT.run_map, read]
  rfl

theorem run_char (c : Char) : (char c).run (c :: rest) = some ((), rest) :=
  run_discard (run_one (beq_self_eq_true c))

theorem run_skip (cs : List Char) : (skip p).run cs = some ((), cs.dropWhile p) := rfl

theorem run_skip_of_stops (stops : Stops p cs) : (skip p).run cs = some ((), cs) := by
  rw [run_skip, stops.dropWhile]

theorem run_accept_self (c : Char) : (accept c).run (c :: rest) = some (true, rest) := by
  rw [accept, run_bind run_get]
  simp only [if_true]
  rfl

theorem run_accept {c : Char} (stops : Stops (· == c) cs) : (accept c).run cs = some (false, cs) := by
  cases cs with
  | nil => rfl
  | cons d rest =>
      have other : ¬ c = d := fun same => by simp [same] at stops
      rw [accept, run_bind run_get]
      simp only [if_neg other]
      rfl

theorem run_exactly {width n : Nat} (positive : 0 < width) (fits : n < 10 ^ width) :
    (exactly width).run (Decimal.digitsOf width n ++ rest) = some (n, rest) := by
  have length := Decimal.length_digitsOf positive fits
  have front : (Decimal.digitsOf width n ++ rest).take width = Decimal.digitsOf width n :=
    List.take_left' length
  have digits : (Decimal.digitsOf width n).all Char.isDigit = true :=
    List.all_eq_true.mpr fun c => Decimal.isDigit_of_mem_digitsOf
  change Decimal.exactly width _ = _
  rw [Decimal.exactly, front, if_pos ⟨length, digits⟩, Decimal.value_digitsOf,
    List.drop_left' length]

theorem run_exactly_none {c : Char} (other : c.isDigit = false) (width : Nat) :
    (exactly (width + 1)).run (c :: rest) = none := by
  change Decimal.exactly (width + 1) _ = _
  apply if_neg
  rintro ⟨-, digits⟩
  rw [List.take_succ_cons, List.all_cons, other] at digits
  exact Bool.false_ne_true digits

theorem run_upTo {most width n : Nat} (fits : (Decimal.digitsOf width n).length ≤ most)
    (stops : Stops Char.isDigit rest) :
    (upTo most).run (Decimal.digitsOf width n ++ rest) = some (n, rest) := by
  have taken : ((Decimal.digitsOf width n ++ rest).takeWhile Char.isDigit).take most =
      Decimal.digitsOf width n := by
    rw [stops.takeWhile_append fun c => Decimal.isDigit_of_mem_digitsOf,
      List.take_of_length_le fits]
  rw [upTo, run_bind run_get]
  simp only [taken, if_neg (Decimal.digitsOf_ne_nil width n)]
  rw [List.drop_left, Decimal.value_digitsOf]
  rfl

theorem run_number {width n : Nat} (stops : Stops Char.isDigit rest) :
    number.run (Decimal.digitsOf width n ++ rest) = some (n, rest) := by
  rw [number, run_bind run_get]
  apply run_upTo _ stops
  rw [List.length_append]
  exact Nat.le_add_right _ _

theorem run_word (text : String) (rest : List Char) :
    (word text).run (text.toList ++ rest) = some ((), rest) := by
  have found : text.toList.isPrefixOf (text.toList ++ rest) = true :=
    List.isPrefixOf_iff_prefix.mpr (List.prefix_append _ _)
  have length : (text.toList ++ rest).drop text.length = rest := by
    rw [← String.length_toList, List.drop_left]
  rw [word, run_bind run_get]
  simp only [found, if_true, length]
  rfl

theorem run_word_none {text : String} (other : text.toList.isPrefixOf cs = false) :
    (word text).run cs = none := by
  rw [word, run_bind run_get]
  simp only [other, Bool.false_eq_true, if_false]
  rfl

theorem run_some1 {front : List Char} (nonempty : front ≠ []) (all : ∀ c ∈ front, p c = true)
    (stops : Stops p rest) : (some1 p).run (front ++ rest) = some (front, rest) := by
  rw [some1, run_bind run_get]
  simp only [stops.takeWhile_append all, if_neg nonempty, List.drop_left]
  rfl

/-- What a step gives one time after another until it fails, having read something every time. -/
inductive Repeats (step : Scan α) : List Char → List α → List Char → Prop
  | stop {cs : List Char} (failed : step.run cs = none) : Repeats step cs [] cs
  | more {cs rest last : List Char} {a : α} {others : List α}
      (read : step.run cs = some (a, rest)) (shorter : rest.length < cs.length)
      (repeats : Repeats step rest others last) : Repeats step cs (a :: others) last

theorem manyUpTo_succ (step : Scan α) (n : Nat) (cs : List Char) :
    (manyUpTo step (n + 1)).run cs =
      match step.run cs with
      | none => some ([], cs)
      | some (a, rest) =>
        ((manyUpTo step n).run rest).map fun (more, rest) => (a :: more, rest) := rfl

theorem Repeats.run_manyUpTo {step : Scan α} {found : List α} {last : List Char}
    (repeats : Repeats step cs found last) {n : Nat} (enough : cs.length ≤ n) :
    (manyUpTo step n).run cs = some (found, last) := by
  -- By induction on the repetitions: the length of the text bounds their number.
  induction repeats generalizing n with
  | stop failed =>
      cases n with
      | zero => rfl
      | succ n => rw [manyUpTo_succ, failed]
  | more read shorter _ ih =>
      cases n with
      | zero => exact absurd (Nat.lt_of_lt_of_le shorter enough) (Nat.not_lt_zero _)
      | succ n =>
          rw [manyUpTo_succ, read]
          simp only [ih (Nat.le_of_lt_succ (Nat.lt_of_lt_of_le shorter enough)), Option.map_some]

theorem Repeats.run_many {step : Scan α} {found : List α} {last : List Char}
    (repeats : Repeats step cs found last) : (many step).run cs = some (found, last) := by
  rw [many, run_bind run_get]
  exact repeats.run_manyUpTo (Nat.le_refl _)

theorem whole_eq_none {step : Scan α} (failed : step.run cs = none) : whole step cs = none := by
  rw [whole, failed]

theorem whole_of_left {a : α} {c : Char} {step : Scan α} (read : step.run cs = some (a, c :: rest)) :
    whole step cs = none := by
  rw [whole, read]

theorem whole_eq {a : α} {step : Scan α} (read : step.run cs = some (a, [])) :
    whole step cs = some a := by
  rw [whole, read]

end Scan

end SealedContainer
