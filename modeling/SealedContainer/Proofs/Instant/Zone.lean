import Mathlib.Data.Bool.AllAny
import SealedContainer.Proofs.Instant.Text
import SealedContainer.Proofs.Text

/-!
What clients may send for an instant. Main statement: `read_in_every_zone`. The text of an instant
is read back while its year has four digits, with its `Z` or without, and so is what clocks of any
zone show; with a signed year it is not read at all.
-/

namespace SealedContainer

/-- How far clocks are ahead of universal time, or behind it, by less than a day. -/
structure Zone where
  ahead : Bool
  hours : Nat
  minutes : Nat
  hours_lt : hours < 24
  minutes_lt : minutes < 60

namespace Zone

variable (zone : Zone)

def offset : Int :=
  if zone.ahead then (zone.hours * 60 + zone.minutes) * 60
  else -((zone.hours * 60 + zone.minutes) * 60)

def sign : Char := if zone.ahead then '+' else '-'

def text : String :=
  String.singleton zone.sign ++ Decimal.padded 2 zone.hours ++ ":" ++ Decimal.padded 2 zone.minutes

theorem minutes_dvd_offset : 60 ∣ zone.offset := by
  unfold offset
  split <;> omega

theorem toList_text : zone.text.toList =
    zone.sign :: (Decimal.digitsOf 2 zone.hours ++ ':' :: Decimal.digitsOf 2 zone.minutes) := by
  simp only [text, String.toList_append, Decimal.toList_padded, String.toList_singleton,
    List.append_assoc, List.singleton_append]
  rfl

theorem eq_of_sign {p : Char → Bool} {b : Bool} (plus : p '+' = b) (minus : p '-' = b) :
    p zone.sign = b := by
  unfold sign
  split
  next => exact plus
  next => exact minus

theorem stops_text {p : Char → Bool} (plus : p '+' = false) (minus : p '-' = false) :
    Stops p zone.text.toList := by
  rw [toList_text, stops_cons]
  exact zone.eq_of_sign plus minus

theorem solid_text : ∀ c ∈ zone.text.toList, isBlank c = false := by
  have two (n : Nat) : ∀ c ∈ Decimal.digitsOf 2 n, isBlank c = false := fun c member =>
    isBlank_of_isDigit c (Decimal.isDigit_of_mem_digitsOf member)
  simp only [toList_text, List.forall_mem_cons, List.forall_mem_append]
  exact ⟨zone.eq_of_sign rfl rfl, two _, rfl, two _⟩

end Zone

namespace ClockTime

open Decimal Scan

variable {rest : List Char}

theorem readFixed_text {t : ClockTime} (real : t.Exists) (plain : PlainYear t.date.year)
    (digits : Stops Char.isDigit rest) (point : Stops (· == '.') rest) :
    readFixed.run (t.text.toList ++ rest) = some (t, rest) := by
  obtain ⟨date, hour, minute, second, nanos⟩ := real
  obtain ⟨month, day⟩ := date.lt_hundred
  have four : t.date.year.toNat < 10 ^ 4 := by
    unfold PlainYear at plain
    omega
  have year : (t.date.year.toNat : Int) = t.date.year := Int.toNat_of_nonneg plain.1
  have two {n : Nat} {rest : List Char} (fits : n < 100) :
      (Scan.exactly 2).run (digitsOf 2 n ++ rest) = some (n, rest) := run_exactly (by decide) fits
  rw [toList_text, yearText, if_pos plain, toList_padded]
  simp only [List.append_assoc, List.cons_append, readFixed]
  rw [run_bind (run_exactly (by decide) four), run_bind (run_char '-')]
  rw [run_bind (two month), run_bind (run_char '-'), run_bind (two day),
    run_bind (run_discard (run_one rfl))]
  rw [run_bind (two (Nat.lt_trans hour (by decide))), run_bind (run_char ':'),
    run_bind (two (Nat.lt_trans minute (by decide))), run_bind (run_char ':')]
  rw [run_bind (two (Nat.lt_of_le_of_lt second (by decide))),
    run_bind (readFraction_fractionText nanos digits point), year]
  rfl

theorem toList_yearText_signed {year : Int} (signed : ¬ PlainYear year) :
    (yearText year).toList = (if year < 0 then '-' else '+') :: digitsOf 4 year.natAbs := by
  rw [yearText, if_neg signed, String.toList_append, toList_padded]
  split <;> rfl

theorem readFixed_signed {t : ClockTime} (signed : ¬ PlainYear t.date.year) :
    readFixed.run (t.text.toList ++ rest) = none := by
  have other : (if t.date.year < 0 then '-' else '+').isDigit = false := by split <;> rfl
  rw [toList_text, toList_yearText_signed signed, List.cons_append, List.cons_append, readFixed]
  exact run_bind_none (run_exactly_none other 3) _

theorem readOffset_text (zone : Zone) :
    (readOffset (Scan.char ':')).run zone.text.toList = some (zone.offset, []) := by
  have two {n : Nat} (rest : List Char) (fits : n < 60) :
      (Scan.exactly 2).run (digitsOf 2 n ++ rest) = some (n, rest) :=
    run_exactly (by decide) (Nat.lt_trans fits (by decide))
  have hours := zone.hours_lt
  have minutes := zone.minutes_lt
  have last := two [] minutes
  rw [List.append_nil] at last
  have signed : (zone.sign == '+') = zone.ahead := by
    unfold Zone.sign
    cases zone.ahead <;> rfl
  have letter : (zone.sign == 'Z' || zone.sign == 'z') = false :=
    zone.eq_of_sign (p := fun c => c == 'Z' || c == 'z') rfl rfl
  have known := zone.eq_of_sign (b := true)
    (p := fun c => c == 'Z' || c == 'z' || c == '+' || c == '-' || c == '\u2212') rfl rfl
  rw [Zone.toList_text, readOffset, run_bind (run_one known)]
  simp only [letter, Bool.false_eq_true, if_false]
  rw [run_bind (two _ (Nat.lt_trans hours (by decide))), run_bind (run_char ':'), run_bind last]
  simp only [if_pos (And.intro hours minutes), signed]
  rfl

end ClockTime

namespace Instant

open ClockTime

variable (t : Instant)

def textIn (zone : Zone) : String := (ofInstant t zone.offset).text ++ zone.text

/-- What is read of a text, whatever white space is around it. -/
def ReadAs (text : String) (result : Option Instant) : Prop :=
  ∀ front back : String, (∀ c ∈ front.toList ++ back.toList, isBlank c = true) →
    parse (front ++ text ++ back) = result

theorem readAs_of_solid {text : String} {result : Option Instant}
    (solid : ∀ c ∈ text.toList, isBlank c = false)
    (read : (parseFixed text.toList <|> parseBare text.toList) = result) : ReadAs text result := by
  intro front back blank
  rw [parse, trimmed_around blank solid]
  exact read

theorem solid_clock (offset : Int) : ∀ c ∈ (ofInstant t offset).text.toList, isBlank c = false :=
  forall_mem_text isBlank_of_isDigit (List.all_iff_forall_prop.mp rfl) _

theorem toList_text : t.text.toList = (ofInstant t 0).text.toList ++ ['Z'] := by
  rw [text, String.toList_append]
  rfl

theorem solid_text : ∀ c ∈ t.text.toList, isBlank c = false := by
  rw [toList_text, List.forall_mem_append]
  exact ⟨t.solid_clock 0, List.forall_mem_singleton.mpr rfl⟩

/-- Without the `Z` the clock is read in any year, and the `Z` is left over. -/
theorem readBare_clock {rest : List Char} (digits : Stops Char.isDigit rest)
    (point : Stops (· == '.') rest) :
    (readLoose (pure ()) (· == 'T')).run ((ofInstant t 0).text.toList ++ rest) =
      some (ofInstant t 0, rest) :=
  readLoose_text (exists_ofInstant t (Int.dvd_zero 60)) (fun _ _ _ => rfl) rfl digits point

section Plain

variable {t} (plain : PlainYear (ofInstant t 0).date.year)

include plain

theorem parseFixed_text : parseFixed t.text.toList = some t := by
  have behind {p : Char → Bool} (other : p 'Z' = false) : Stops p ['Z'] := stops_cons.mpr other
  have time := readFixed_text (exists_ofInstant t (Int.dvd_zero 60)) plain (behind rfl) (behind rfl)
  have zone : (readOffset (Scan.char ':')).run ['Z'] = some (0, []) := rfl
  rw [parseFixed, toList_text, Scan.whole_eq (a := (ofInstant t 0, 0))]
  · exact toInstant?_ofInstant t (Int.dvd_zero 60)
  · rw [Scan.run_bind time, Scan.run_bind zone]
    rfl

theorem parse_clock :
    (parseFixed (ofInstant t 0).text.toList <|> parseBare (ofInstant t 0).text.toList) =
      some t := by
  have real := exists_ofInstant t (Int.dvd_zero 60)
  have time := readFixed_text real plain (stops_nil _) (stops_nil _)
  have bare := t.readBare_clock (stops_nil _) (stops_nil _)
  have zone : (readOffset (Scan.char ':')).run [] = none := rfl
  rw [List.append_nil] at time bare
  have unfixed : parseFixed (ofInstant t 0).text.toList = none := by
    rw [parseFixed, Scan.whole_eq_none]
    · rfl
    · rw [Scan.run_bind time]
      exact Scan.run_bind_none zone _
  rw [unfixed, parseBare, Scan.whole_eq bare]
  exact toInstant?_ofInstant t (Int.dvd_zero 60)

end Plain

theorem parseFixed_textIn (zone : Zone) (plain : PlainYear (ofInstant t zone.offset).date.year) :
    parseFixed (t.textIn zone).toList = some t := by
  have minutes := zone.minutes_dvd_offset
  have time := readFixed_text (exists_ofInstant t minutes) plain (zone.stops_text rfl rfl)
    (zone.stops_text rfl rfl)
  rw [parseFixed, textIn, String.toList_append,
    Scan.whole_eq (a := (ofInstant t zone.offset, zone.offset))]
  · exact toInstant?_ofInstant t minutes
  · rw [Scan.run_bind time, Scan.run_bind (readOffset_text zone)]
    rfl

theorem parse_signed (signed : ¬ PlainYear (ofInstant t 0).date.year) :
    (parseFixed t.text.toList <|> parseBare t.text.toList) = none := by
  have behind {p : Char → Bool} (other : p 'Z' = false) : Stops p ['Z'] := stops_cons.mpr other
  have bare := t.readBare_clock (behind rfl) (behind rfl)
  rw [toList_text, parseFixed, Scan.whole_eq_none, parseBare, Scan.whole_of_left bare]
  · rfl
  · exact Scan.run_bind_none (readFixed_signed signed) _

/--
While the year has four digits, an instant is read back from its text, and from its text without
the `Z` as well; with a signed year its text is not read. What clocks of any zone show is read back
while their own year has four digits. White space around the text does not matter.
-/
theorem read_in_every_zone :
    (PlainYear (ofInstant t 0).date.year →
      ReadAs t.text (some t) ∧ ∀ clock : String, clock ++ "Z" = t.text → ReadAs clock (some t)) ∧
      (∀ zone : Zone, PlainYear (ofInstant t zone.offset).date.year →
        ReadAs (t.textIn zone) (some t)) ∧
      (¬ PlainYear (ofInstant t 0).date.year → ReadAs t.text none) := by
  refine ⟨?_, ?_, ?_⟩
  · intro plain
    constructor
    · apply readAs_of_solid t.solid_text
      rw [parseFixed_text plain]
      rfl
    · intro clock behind
      have letters := congrArg String.toList behind
      rw [String.toList_append, toList_text] at letters
      have same : clock.toList = (ofInstant t 0).text.toList := List.append_cancel_right letters
      rw [String.toList_inj.mp same]
      exact readAs_of_solid (t.solid_clock 0) (parse_clock plain)
  · intro zone plain
    apply readAs_of_solid
    · rw [textIn, String.toList_append, List.forall_mem_append]
      exact ⟨t.solid_clock _, zone.solid_text⟩
    · rw [t.parseFixed_textIn zone plain]
      rfl
  · intro signed
    exact readAs_of_solid t.solid_text (t.parse_signed signed)

def inLeapSecond : Instant := ⟨1483228799, 1500000000, by decide, by decide⟩

/-- In a zone that is ahead, clocks show the last leap second in the next year. -/
theorem leap_second_read :
    parse " 2016-12-31T23:59:60.500Z\n" = some inLeapSecond ∧
      parse "2016-12-31T23:59:60.500" = some inLeapSecond ∧
      parse "2017-01-01T05:44:60.500+05:45" = some inLeapSecond ∧
      parse "-262143-01-01T00:00:00Z" = none := by
  have written : inLeapSecond.text = "2016-12-31T23:59:60.500Z" := by decide +kernel
  have plain : PlainYear (ofInstant inLeapSecond 0).date.year := by decide +kernel
  have signed : ¬ PlainYear (ofInstant first 0).date.year := by decide +kernel
  obtain ⟨universal, clock⟩ := (read_in_every_zone inLeapSecond).1 plain
  let zone : Zone := ⟨true, 5, 45, by decide, by decide⟩
  have later := (read_in_every_zone inLeapSecond).2.1 zone (by decide +kernel)
  refine ⟨?_, ?_, ?_, ?_⟩
  · rw [written] at universal
    exact universal " " "\n" (List.all_eq_true.mp rfl)
  · exact clock "2016-12-31T23:59:60.500" (by decide +kernel) "" "" nofun
  · have shown : inLeapSecond.textIn zone = "2017-01-01T05:44:60.500+05:45" := by decide +kernel
    rw [shown] at later
    exact later "" "" nofun
  · have shown : first.text = "-262143-01-01T00:00:00Z" := by decide +kernel
    have unread := (read_in_every_zone first).2.2 signed
    rw [shown] at unread
    exact unread "" "" nofun

end Instant

end SealedContainer
