import Mathlib.Data.List.GetD
import SealedContainer.Bytes
import SealedContainer.Instant.Text
import SealedContainer.Proofs.Calendar
import SealedContainer.Proofs.Text.Scan

/-!
An instant is read back from its text, in every year and with every fraction of a second. Main
statement: `Instant.parseStored_text`.
-/

namespace SealedContainer

theorem Instant.of?_self (t : Instant) : Instant.of? t.seconds t.nanos = some t :=
  dif_pos ⟨t.bounded, t.counted⟩

theorem Date.Exists.lt_hundred {d : Date} (real : d.Exists) : d.month < 100 ∧ d.day < 100 := by
  obtain ⟨-, first, last⟩ := real
  have within : d.month - 1 < (Calendar.monthLengths d.year).length := by
    apply Nat.lt_of_not_le
    intro beyond
    rw [List.getD_eq_default _ _ beyond] at last
    omega
  have size : (Calendar.monthLengths d.year)[d.month - 1] ≤ 31 := by
    have all : ∀ n ∈ Calendar.monthLengths d.year, n ≤ 31 := by
      cases leap : Calendar.isLeap d.year <;> simp [Calendar.monthLengths, leap]
    exact all _ (List.getElem_mem within)
  have count : (Calendar.monthLengths d.year).length = 12 := rfl
  rw [List.getD_eq_getElem _ _ within] at last
  omega

namespace ClockTime

open Decimal Scan

section Clock

variable (t : Instant) {offset : Int} (minutes : 60 ∣ offset)

include minutes

/-- Whole minutes off, clocks show a sixtieth second in a leap second, and in no other. -/
theorem second_ofInstant :
    (ofInstant t offset).second ≤ 60 ∧
      ((ofInstant t offset).second = 60 ↔ t.nanos / Duration.nanosPerSecond = 1) := by
  have counted := t.counted
  simp only [ofInstant, Duration.nanosPerSecond, Instant.secondsPerDay]
  omega

theorem exists_ofInstant : (ofInstant t offset).Exists := by
  have seconds := second_ofInstant t minutes
  refine ⟨Date.exists_ofDays _, ?_, ?_, seconds.1, ?_⟩
  all_goals
    simp only [ofInstant, Duration.nanosPerSecond, Instant.secondsPerDay]
    omega

theorem toInstant?_ofInstant : (ofInstant t offset).toInstant? offset = some t := by
  obtain ⟨-, leap⟩ := second_ofInstant t minutes
  have counted := t.counted
  have extra :
      (if (ofInstant t offset).second = 60 then 1 else 0) = t.nanos / Duration.nanosPerSecond := by
    unfold Duration.nanosPerSecond at leap ⊢
    split <;> omega
  rw [toInstant?, if_pos (exists_ofInstant t minutes), ← t.of?_self]
  simp only [extra]
  congr 1
  · simp only [ofInstant, Date.toDays_ofDays, Instant.secondsPerDay, Duration.nanosPerSecond]
    omega
  · exact Nat.mod_add_div' _ _

end Clock

/-! ## The parts of a text -/

variable {rest : List Char}

theorem readYear_yearText (year : Int) (stops : Stops Char.isDigit rest) :
    readYear.run ((yearText year).toList ++ rest) = some (year, rest) := by
  unfold yearText
  by_cases plain : PlainYear year
  · have fits : (digitsOf 4 year.toNat).length ≤ 4 :=
      Nat.le_of_eq (length_digitsOf (by decide) (by unfold PlainYear at plain; omega))
    have unsigned (sign : Char) (other : sign.isDigit = false) :
        Stops (· == sign) (digitsOf 4 year.toNat ++ rest) :=
      .digits (beq_of_isDigit other) 4 _ rest
    have whole : (year.toNat : Int) = year := Int.toNat_of_nonneg plain.1
    rw [if_pos plain, toList_padded, readYear, run_bind (run_accept (unsigned '-' rfl))]
    simp only [Bool.false_eq_true, if_false]
    rw [run_bind (run_accept (unsigned '+' rfl))]
    simp only [Bool.false_eq_true, if_false]
    rw [run_bind (run_upTo fits stops), whole]
    rfl
  · rw [if_neg plain, String.toList_append, toList_padded]
    split
    next before =>
      have value : -(year.natAbs : Int) = year := by omega
      have signed : "-".toList = ['-'] := rfl
      rw [signed, List.append_assoc, List.singleton_append, readYear, run_bind (run_accept_self '-')]
      simp only [if_true]
      rw [run_bind (run_number stops), value]
      rfl
    next notBefore =>
      have value : (year.natAbs : Int) = year := by omega
      have signed : "+".toList = ['+'] := rfl
      have notMinus : Stops (· == '-') ('+' :: (digitsOf 4 year.natAbs ++ rest)) :=
        stops_cons.mpr rfl
      rw [signed, List.append_assoc, List.singleton_append, readYear, run_bind (run_accept notMinus)]
      simp only [Bool.false_eq_true, if_false]
      rw [run_bind (run_accept_self '+')]
      simp only [if_true]
      rw [run_bind (run_number stops), value]
      rfl

theorem readFraction_digits {places n : Nat} (positive : 0 < places) (few : places ≤ 9)
    (fits : n < 10 ^ places) (stops : Stops Char.isDigit rest) :
    readFraction.run ('.' :: (digitsOf places n ++ rest)) = some (n * 10 ^ (9 - places), rest) := by
  have length := length_digitsOf positive fits
  have taken : (digitsOf places n ++ rest).takeWhile Char.isDigit = digitsOf places n :=
    stops.takeWhile_append fun c => isDigit_of_mem_digitsOf
  have kept : (digitsOf places n).take 9 = digitsOf places n :=
    List.take_of_length_le (length.symm ▸ few)
  have left : (digitsOf places n ++ rest).dropWhile Char.isDigit = rest := by
    rw [List.dropWhile_append_of_pos fun c => isDigit_of_mem_digitsOf, stops.dropWhile]
  rw [readFraction, run_bind (run_accept_self '.')]
  simp only [if_true]
  rw [run_bind run_get]
  simp only [taken, if_neg (digitsOf_ne_nil places n)]
  rw [run_bind (run_skip _), left, kept, value_digitsOf, length]
  rfl

theorem fractionText_cases {nanos : Nat} (fits : nanos < 10 ^ 9) :
    (nanos = 0 ∧ (fractionText nanos).toList = []) ∨
      ∃ places n, 0 < places ∧ places ≤ 9 ∧ n < 10 ^ places ∧ n * 10 ^ (9 - places) = nanos ∧
        (fractionText nanos).toList = '.' :: digitsOf places n := by
  have pointed (places n : Nat) : ("." ++ padded places n).toList = '.' :: digitsOf places n := by
    rw [String.toList_append, toList_padded]
    rfl
  unfold fractionText
  split
  next zero => exact .inl ⟨zero, rfl⟩
  next =>
    right
    split
    next => exact ⟨3, _, by decide, by decide, by omega, by omega, pointed _ _⟩
    next =>
      split
      next => exact ⟨6, _, by decide, by decide, by omega, by omega, pointed _ _⟩
      next => exact ⟨9, _, by decide, by decide, fits, Nat.mul_one nanos, pointed _ _⟩

theorem readFraction_fractionText {nanos : Nat} (fits : nanos < 10 ^ 9)
    (digits : Stops Char.isDigit rest) (point : Stops (· == '.') rest) :
    readFraction.run ((fractionText nanos).toList ++ rest) = some (nanos, rest) := by
  rcases fractionText_cases fits with
    ⟨zero, letters⟩ | ⟨places, n, positive, few, small, value, letters⟩
  · rw [letters, zero, List.nil_append, readFraction, run_bind (run_accept point)]
    simp only [Bool.false_eq_true, if_false]
    rfl
  · rw [letters, List.cons_append, readFraction_digits positive few small digits, value]

theorem stops_fractionText {nanos : Nat} (fits : nanos < 10 ^ 9) (stops : Stops Char.isDigit rest) :
    Stops Char.isDigit ((fractionText nanos).toList ++ rest) := by
  rcases fractionText_cases fits with ⟨_, letters⟩ | ⟨_, _, _, _, _, _, letters⟩
  · rwa [letters]
  · rw [letters]
    exact stops_cons.mpr rfl

/-! ## A whole text -/

theorem toList_text (t : ClockTime) :
    t.text.toList = (yearText t.date.year).toList ++ '-' :: (digitsOf 2 t.date.month ++
      '-' :: (digitsOf 2 t.date.day ++ 'T' :: (digitsOf 2 t.hour ++ ':' :: (digitsOf 2 t.minute ++
        ':' :: (digitsOf 2 t.second ++ (fractionText t.nanos).toList))))) := by
  simp only [text, String.toList_append, toList_padded, List.append_assoc]
  rfl

section Letters

variable {p : Char → Prop} (digit : ∀ c, c.isDigit = true → p c)
  (mark : ∀ c ∈ ['-', '+', 'T', ':', '.'], p c)

include digit mark

theorem forall_mem_yearText (year : Int) : ∀ c ∈ (yearText year).toList, p c := by
  have four (n : Nat) : ∀ c ∈ (padded 4 n).toList, p c := fun c member =>
    digit c (isDigit_of_mem_padded member)
  unfold yearText
  split
  next => exact four _
  next =>
    rw [String.toList_append, List.forall_mem_append]
    refine ⟨?_, four _⟩
    split
    next => exact List.forall_mem_singleton.mpr (mark '-' (by decide))
    next => exact List.forall_mem_singleton.mpr (mark '+' (by decide))

theorem forall_mem_fractionText (nanos : Nat) : ∀ c ∈ (fractionText nanos).toList, p c := by
  have pointed (places n : Nat) : ∀ c ∈ ("." ++ padded places n).toList, p c := by
    rw [String.toList_append, List.forall_mem_append]
    exact ⟨List.forall_mem_singleton.mpr (mark '.' (by decide)), fun c member =>
      digit c (isDigit_of_mem_padded member)⟩
  unfold fractionText
  split
  next => exact nofun
  next =>
    split
    next => exact pointed _ _
    next => split <;> exact pointed _ _

theorem forall_mem_text (t : ClockTime) : ∀ c ∈ t.text.toList, p c := by
  have two (n : Nat) : ∀ c ∈ digitsOf 2 n, p c := fun c member =>
    digit c (isDigit_of_mem_digitsOf member)
  have dash := mark '-' (by decide)
  have colon := mark ':' (by decide)
  simp only [toList_text, List.forall_mem_append, List.forall_mem_cons]
  exact ⟨forall_mem_yearText digit mark _, dash, two _, dash, two _, mark 'T' (by decide), two _,
    colon, two _, colon, two _, forall_mem_fractionText digit mark _⟩

end Letters

theorem stops_yearText (year : Int) : Stops isBlank ((yearText year).toList ++ rest) := by
  unfold yearText
  split
  next =>
    rw [toList_padded]
    exact .digits isBlank_of_isDigit 4 _ rest
  next =>
    rw [String.toList_append]
    split
    next => exact stops_cons.mpr rfl
    next => exact stops_cons.mpr rfl

/-- A text is read as records are, with white space passed over wherever it could stand. -/
theorem readLoose_text {t : ClockTime} (real : t.Exists) {gap : Scan Unit} {isMiddle : Char → Bool}
    (closed : ∀ c rest, isBlank c = false → gap.run (c :: rest) = some ((), c :: rest))
    (middle : isMiddle 'T' = true) (digits : Stops Char.isDigit rest)
    (point : Stops (· == '.') rest) :
    (readLoose gap isMiddle).run (t.text.toList ++ rest) = some (t, rest) := by
  obtain ⟨date, hour, minute, second, nanos⟩ := real
  obtain ⟨month, day⟩ := date.lt_hundred
  have ends {c : Char} (rest : List Char) (other : c.isDigit = false) :
      Stops Char.isDigit (c :: rest) := stops_cons.mpr other
  have dash (rest : List Char) : gap.run ('-' :: rest) = some ((), '-' :: rest) := closed _ _ rfl
  have colon (rest : List Char) : gap.run (':' :: rest) = some ((), ':' :: rest) := closed _ _ rfl
  have unspaced {n : Nat} {rest : List Char} :
      (skip isBlank).run (digitsOf 2 n ++ rest) = some ((), digitsOf 2 n ++ rest) :=
    run_skip_of_stops (.digits isBlank_of_isDigit 2 n rest)
  have two {n : Nat} {rest : List Char} (fits : n < 100) (stops : Stops Char.isDigit rest) :
      (upTo 2).run (digitsOf 2 n ++ rest) = some (n, rest) :=
    run_upTo (Nat.le_of_eq (length_digitsOf (by decide) fits)) stops
  simp only [toList_text, List.append_assoc, List.cons_append, readLoose]
  -- The steps of the reader in turn, a field and what stands behind it at a time.
  rw [run_bind (run_skip_of_stops (stops_yearText _)), run_bind (readYear_yearText _ (ends _ rfl)),
    run_bind (dash _), run_bind (run_char '-')]
  rw [run_bind unspaced, run_bind (two month (ends _ rfl)), run_bind (dash _),
    run_bind (run_char '-')]
  rw [run_bind unspaced, run_bind (two day (ends _ rfl)), run_bind (run_discard (run_one middle))]
  rw [run_bind unspaced, run_bind (two (Nat.lt_trans hour (by decide)) (ends _ rfl)),
    run_bind (colon _), run_bind (run_char ':')]
  rw [run_bind unspaced, run_bind (two (Nat.lt_trans minute (by decide)) (ends _ rfl)),
    run_bind (colon _), run_bind (run_char ':')]
  rw [run_bind unspaced,
    run_bind (two (Nat.lt_of_le_of_lt second (by decide)) (stops_fractionText nanos digits)),
    run_bind (readFraction_fractionText nanos digits point)]
  rfl

end ClockTime

theorem Instant.parseStored_text (t : Instant) : parseStored t.text = some t := by
  have zone : ClockTime.readZone.run ['Z'] = some (0, []) := rfl
  have before : Stops isBlank ['Z'] := stops_cons.mpr rfl
  have letters : t.text.toList = (ClockTime.ofInstant t 0).text.toList ++ ['Z'] := by
    rw [text, String.toList_append]
    rfl
  have read : (ClockTime.readLoose (Scan.skip isBlank) fun c => c == 'T' || c == 't' || c == ' ').run
      ((ClockTime.ofInstant t 0).text.toList ++ ['Z']) = some (ClockTime.ofInstant t 0, ['Z']) :=
    ClockTime.readLoose_text (ClockTime.exists_ofInstant t (Int.dvd_zero 60))
      (fun _ _ solid => Scan.run_skip_of_stops (stops_cons.mpr solid)) rfl (stops_cons.mpr rfl)
      (stops_cons.mpr rfl)
  rw [parseStored, letters, Scan.whole_eq (a := (ClockTime.ofInstant t 0, 0))]
  · exact ClockTime.toInstant?_ofInstant t (Int.dvd_zero 60)
  · rw [Scan.run_bind read, Scan.run_bind (Scan.run_skip_of_stops before), Scan.run_bind zone,
      Scan.run_bind (Scan.run_skip_of_stops (stops_nil isBlank))]
    rfl

example : Instant.first.text = "-262143-01-01T00:00:00Z" := by decide +kernel

end SealedContainer
