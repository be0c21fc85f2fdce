import Mathlib.Data.Bool.AllAny
import Mathlib.Data.List.TakeDrop
import Mathlib.Data.List.TakeWhile
import SealedContainer.Duration.Text
import SealedContainer.Proofs.Text.Scan

/-!
The form of duration texts. Main statement: `read?_eq_some_iff`. The parts that are read are those
of the one form that the text has, where letters may be in either case and a long s passes for an
`S`; a text of no such form is not read.
-/

namespace SealedContainer

/-- Which characters may stand for a letter, which is named in upper case. -/
abbrev Spelling := Char → Char → Prop

namespace Spelling

def cased : Spelling := fun letter c => c = letter ∨ c = letter.toLower

/-- The letter in either case, or a long s for an `S`. -/
def lenient : Spelling := fun letter c => cased letter c ∨ letter = 'S' ∧ c = 'ſ'

theorem toNat_toUpper (c : Char) :
    c.toUpper.toNat = if 97 ≤ c.toNat ∧ c.toNat ≤ 122 then c.toNat - 32 else c.toNat := by
  by_cases lower : 'a'.val ≤ c.val ∧ c.val ≤ 'z'.val
  · have spelled : c.toUpper.val = c.val + ('A'.val - 'a'.val) := by
      delta Char.toUpper
      rw [dif_pos lower]
    simp only [UInt32.le_iff_toNat_le, Char.reduceVal, UInt32.reduceToNat] at lower
    simp only [Char.toNat, spelled, if_pos lower, UInt32.toNat_add, UInt32.toNat_sub,
      Char.reduceVal, UInt32.reduceToNat]
    omega
  · have spelled : c.toUpper = c := dif_neg lower
    simp only [UInt32.le_iff_toNat_le, Char.reduceVal, UInt32.reduceToNat] at lower
    rw [spelled, Char.toNat, if_neg lower]

section Letter

variable {letter c : Char} (upper : letter.isUpper = true)

include upper

theorem upper_bounds : 65 ≤ letter.toNat ∧ letter.toNat ≤ 90 := of_decide_eq_true upper

theorem toNat_toLower : letter.toLower.toNat = letter.toNat + 32 := by
  have between := upper_bounds upper
  have spelled : letter.toLower.val = letter.val + ('a'.val - 'A'.val) :=
    congrArg Char.val (dif_pos (of_decide_eq_true upper))
  simp only [Char.toNat] at between ⊢
  simp only [spelled, UInt32.toNat_add, UInt32.toNat_sub, Char.reduceVal, UInt32.reduceToNat]
  omega

theorem toUpper_eq_iff : c.toUpper = letter ↔ cased letter c := by
  have between := upper_bounds upper
  rw [cased, ← Char.toNat_inj, ← Char.toNat_inj, ← Char.toNat_inj, toNat_toUpper,
    toNat_toLower upper]
  split <;> omega

theorem isLetter_iff : DurationText.isLetter letter c = true ↔ lenient letter c := by
  simp only [DurationText.isLetter, lenient, Bool.or_eq_true, Bool.and_eq_true, beq_iff_eq,
    toUpper_eq_iff upper]

theorem cased_bounds (spelled : cased letter c) : 65 ≤ c.toNat ∧ c.toNat ≤ 122 := by
  have between := upper_bounds upper
  rcases spelled with rfl | rfl
  · omega
  · rw [toNat_toLower upper]
    omega

theorem le_toNat_of_isLetter (spelled : DurationText.isLetter letter c = true) : 65 ≤ c.toNat := by
  rcases (isLetter_iff upper).mp spelled with cased | ⟨-, rfl⟩
  · exact (cased_bounds upper cased).1
  · decide

theorem isLetter_other {other : Char} (upper' : other.isUpper = true) (distinct : letter ≠ other)
    (spelled : DurationText.isLetter other c = true) : DurationText.isLetter letter c = false := by
  rw [Bool.eq_false_iff]
  intro both
  -- Only the long s is not spelled in ASCII, and it is the same in upper case.
  have long : ∀ l : Char, l.isUpper = true → 'ſ'.toUpper ≠ l := by
    rintro l upper rfl
    exact absurd upper (by decide)
  simp only [DurationText.isLetter, Bool.or_eq_true, Bool.and_eq_true, beq_iff_eq] at both spelled
  rcases both with one | ⟨rfl, rfl⟩
  · rcases spelled with two | ⟨rfl, rfl⟩
    · exact distinct (one.symm.trans two)
    · exact long letter upper one
  · rcases spelled with two | ⟨rfl, -⟩
    · exact long other upper' two
    · exact distinct rfl

end Letter

end Spelling

/-! ## The form -/

inductive SignForm : Bool → List Char → Prop
  | missing : SignForm false []
  | plus : SignForm false ['+']
  | minus : SignForm true ['-']

structure SignedDigits.Form (n : SignedDigits) (cs : List Char) : Prop where
  nonempty : n.digits ≠ []
  digits : ∀ c ∈ n.digits, c.isDigit = true
  signed : ∃ sign, SignForm n.negative sign ∧ cs = sign ++ n.digits

namespace DurationText

inductive PartForm (spells : Spelling) (letter : Char) : Option SignedDigits → List Char → Prop
  | missing : PartForm spells letter none []
  | present {n : SignedDigits} {number : List Char} {c : Char} :
      n.Form number → spells letter c → PartForm spells letter (some n) (number ++ [c])

inductive SecondsForm (spells : Spelling) : Option SignedDigits → List Char → List Char → Prop
  | missing : SecondsForm spells none [] []
  | whole {n : SignedDigits} {number : List Char} {c : Char} :
      n.Form number → spells 'S' c → SecondsForm spells (some n) [] (number ++ [c])
  | broken {n : SignedDigits} {number fraction : List Char} {mark c : Char} :
      n.Form number → mark = '.' ∨ mark = ',' → fraction.length ≤ 9 →
      (∀ d ∈ fraction, d.isDigit = true) → spells 'S' c →
      SecondsForm spells (some n) fraction (number ++ mark :: (fraction ++ [c]))

/--
A sign, the letter `P` and days alone, or days that may be missing, the letter `T` and one at least
of hours, minutes and seconds.
-/
inductive Form (spells : Spelling) : DurationText → List Char → Prop
  | dated {negative : Bool} {sign days : List Char} {p : Char} {d : SignedDigits} :
      SignForm negative sign → spells 'P' p → PartForm spells 'D' (some d) days →
      Form spells ⟨negative, some d, false, none, none, none, []⟩ (sign ++ p :: days)
  | timed {negative : Bool} {sign days hours minutes seconds fraction : List Char} {p t : Char}
      {d h m s : Option SignedDigits} :
      SignForm negative sign → spells 'P' p → PartForm spells 'D' d days → spells 'T' t →
      PartForm spells 'H' h hours → PartForm spells 'M' m minutes →
      SecondsForm spells s fraction seconds → h.isSome ∨ m.isSome ∨ s.isSome →
      Form spells ⟨negative, d, true, h, m, s, fraction⟩
        (sign ++ p :: (days ++ t :: (hours ++ (minutes ++ seconds))))

end DurationText

/-! ## Numbers -/

theorem Decimal.exists_sign (cs : List Char) :
    ∃ front, SignForm (sign cs).1 front ∧ cs = front ++ (sign cs).2 := by
  unfold sign
  split
  next => exact ⟨_, .minus, rfl⟩
  next => exact ⟨_, .plus, rfl⟩
  next => exact ⟨_, .missing, rfl⟩

theorem Decimal.sign_eq {negative : Bool} {front rest : List Char} (form : SignForm negative front)
    (unsigned : ∀ c ∈ rest.head?, c ≠ '-' ∧ c ≠ '+') : sign (front ++ rest) = (negative, rest) := by
  cases form with
  | minus => rfl
  | plus => rfl
  | missing =>
      rw [List.nil_append]
      unfold sign
      split
      next => exact absurd rfl (unsigned '-' rfl).1
      next => exact absurd rfl (unsigned '+' rfl).2
      next => rfl

theorem Decimal.run_eq (cs : List Char) :
    run cs = (cs.takeWhile Char.isDigit, cs.dropWhile Char.isDigit) :=
  List.span_eq_takeWhile_dropWhile _ cs

namespace SignedDigits

variable {n : SignedDigits} {number cs rest : List Char}

theorem read_number (form : n.Form number) (stops : Stops Char.isDigit rest) :
    read (number ++ rest) = some (n, rest) := by
  obtain ⟨nonempty, digits, sign, signed, rfl⟩ := form
  have unsigned : ∀ c ∈ (n.digits ++ rest).head?, c ≠ '-' ∧ c ≠ '+' := by
    intro c first
    obtain ⟨d, more, front⟩ := List.exists_cons_of_ne_nil nonempty
    rw [front] at first digits
    cases first
    have digit := digits c List.mem_cons_self
    constructor <;> rintro rfl <;> cases digit
  have left : (n.digits ++ rest).dropWhile Char.isDigit = rest := by
    rw [List.dropWhile_append_of_pos digits, stops.dropWhile]
  rw [read, List.append_assoc, Decimal.sign_eq signed unsigned]
  simp only [Decimal.run_eq, stops.takeWhile_append digits, left, if_neg nonempty]

theorem form_of_read (got : read cs = some (n, rest)) :
    Stops Char.isDigit rest ∧ ∃ number, n.Form number ∧ cs = number ++ rest := by
  obtain ⟨front, signed, split⟩ := Decimal.exists_sign cs
  simp only [read, Decimal.run_eq] at got
  generalize Decimal.sign cs = parts at signed split got
  split at got
  next => cases got
  next nonempty =>
    cases got
    have cut : parts.2.takeWhile Char.isDigit ++ parts.2.dropWhile Char.isDigit = parts.2 :=
      List.takeWhile_append_dropWhile
    refine ⟨?_, front ++ parts.2.takeWhile Char.isDigit, ⟨nonempty, ?_, front, signed, rfl⟩, ?_⟩
    · intro c first
      have kept := List.head?_dropWhile_not Char.isDigit parts.2
      rw [Option.mem_def.mp first] at kept
      exact kept
    · exact fun c member => List.mem_takeWhile_imp member
    · rw [List.append_assoc, cut, split]

end SignedDigits

namespace DurationText

/-! ## Parts -/

section Part

variable {letter other c : Char} {n : SignedDigits} {part : Option SignedDigits}
  {number cs front rest fraction : List Char}

def Lacks (letter : Char) (cs : List Char) : Prop := field letter cs = (none, cs)

theorem isDigit_of_high (high : 65 ≤ c.toNat) : c.isDigit = false := by
  rw [Bool.eq_false_iff]
  intro digit
  have bounds : 48 ≤ c.toNat ∧ c.toNat ≤ 57 := by
    simpa [Char.isDigit, UInt32.le_iff_toNat_le] using digit
  omega

theorem mark_ne_letter (marked : c = '.' ∨ c = ',') : ¬ 65 ≤ c.toNat := by
  rcases marked with rfl | rfl <;> decide

theorem lacks_nil (letter : Char) : Lacks letter [] := rfl

theorem lacks_of_number (form : n.Form number) (digit : c.isDigit = false)
    (wrong : isLetter letter c = false) (rest : List Char) :
    Lacks letter (number ++ c :: rest) := by
  rw [Lacks, field, SignedDigits.read_number form (stops_cons.mpr digit)]
  simp only [wrong, Bool.false_eq_true, if_false]

theorem lacks_of_letter (high : 65 ≤ c.toNat) (rest : List Char) : Lacks letter (c :: rest) := by
  have unsigned : ∀ d ∈ (c :: rest).head?, d ≠ '-' ∧ d ≠ '+' := by
    rintro d ⟨⟩
    constructor <;> rintro rfl <;> exact absurd high (by decide)
  have signless := Decimal.sign_eq .missing unsigned
  rw [List.nil_append] at signless
  have digit : ¬ c.isDigit = true := Bool.eq_false_iff.mp (isDigit_of_high high)
  rw [Lacks, field, SignedDigits.read, signless]
  simp only [Decimal.run_eq, List.takeWhile_cons_of_neg digit, if_true]

section Named

variable (upper : letter.isUpper = true)

include upper

theorem field_of_form (form : PartForm .lenient letter part front) (lacks : Lacks letter rest) :
    field letter (front ++ rest) = (part, rest) := by
  cases form with
  | missing => exact lacks
  | @present n number c form spelled =>
      have known := (Spelling.isLetter_iff upper).mpr spelled
      have digit := isDigit_of_high (Spelling.le_toNat_of_isLetter upper known)
      rw [List.append_assoc, List.singleton_append, field,
        SignedDigits.read_number form (stops_cons.mpr digit)]
      simp only [known, if_true]

theorem form_of_field (cs : List Char) :
    ∃ front, PartForm .lenient letter (field letter cs).1 front ∧
      cs = front ++ (field letter cs).2 := by
  unfold field
  split
  next n c rest read =>
    obtain ⟨-, number, form, split⟩ := SignedDigits.form_of_read read
    split
    next spelled =>
      refine ⟨number ++ [c], .present form ((Spelling.isLetter_iff upper).mp spelled), ?_⟩
      rw [List.append_assoc]
      exact split
    next => exact ⟨[], .missing, rfl⟩
  next => exact ⟨[], .missing, rfl⟩

theorem lacks_of_part (upper' : other.isUpper = true) (distinct : letter ≠ other)
    (form : PartForm .lenient other part front) (lacks : Lacks letter rest) :
    Lacks letter (front ++ rest) := by
  cases form with
  | missing => exact lacks
  | present form spelled =>
      have known := (Spelling.isLetter_iff upper').mpr spelled
      rw [List.append_assoc]
      exact lacks_of_number form (isDigit_of_high (Spelling.le_toNat_of_isLetter upper' known))
        (Spelling.isLetter_other upper upper' distinct known) rest

theorem lacks_of_seconds (distinct : letter ≠ 'S')
    (form : SecondsForm .lenient part fraction front) : Lacks letter front := by
  cases form with
  | missing => exact lacks_nil letter
  | whole form spelled =>
      have known := (Spelling.isLetter_iff rfl).mpr spelled
      exact lacks_of_number form (isDigit_of_high (Spelling.le_toNat_of_isLetter rfl known))
        (Spelling.isLetter_other upper rfl distinct known) []
  | broken form marked =>
      have low : ¬ isLetter letter _ = true := fun known =>
        mark_ne_letter marked (Spelling.le_toNat_of_isLetter upper known)
      rcases marked with rfl | rfl
      · exact lacks_of_number form rfl (Bool.eq_false_iff.mpr low) _
      · exact lacks_of_number form rfl (Bool.eq_false_iff.mpr low) _

end Named

theorem secondsField_of_form (form : SecondsForm .lenient part fraction front) :
    secondsField front = (part, fraction, []) := by
  cases form with
  | missing => rfl
  | whole form spelled =>
      have known := (Spelling.isLetter_iff rfl).mpr spelled
      have digit := isDigit_of_high (Spelling.le_toNat_of_isLetter rfl known)
      rw [secondsField, SignedDigits.read_number form (stops_cons.mpr digit)]
      simp only [known, if_true]
  | @broken n number _ mark c form marked short digits spelled =>
      have known := (Spelling.isLetter_iff rfl).mpr spelled
      have stops : Stops Char.isDigit [c] :=
        stops_cons.mpr (isDigit_of_high (Spelling.le_toNat_of_isLetter rfl known))
      have point : isLetter 'S' mark = false ∧ mark.isDigit = false := by
        rcases marked with rfl | rfl <;> exact ⟨rfl, rfl⟩
      have left : (fraction ++ [c]).dropWhile Char.isDigit = [c] := by
        rw [List.dropWhile_append_of_pos digits, stops.dropWhile]
      rw [secondsField, SignedDigits.read_number form (stops_cons.mpr point.2)]
      simp only [point.1, Bool.false_eq_true, if_false, if_pos marked, Decimal.run_eq,
        stops.takeWhile_append digits, left, if_pos (And.intro known short)]

theorem form_of_secondsField (all : (secondsField cs).2.2 = []) :
    SecondsForm .lenient (secondsField cs).1 (secondsField cs).2.1 cs := by
  have missing (empty : cs = []) : SecondsForm .lenient none [] cs := by
    rw [empty]
    exact .missing
  unfold secondsField at all ⊢
  split at all
  next n c rest read =>
    obtain ⟨-, number, form, rfl⟩ := SignedDigits.form_of_read read
    split at all
    next spelled =>
      cases all
      rw [if_pos spelled]
      exact .whole form ((Spelling.isLetter_iff rfl).mp spelled)
    next other =>
      rw [if_neg other]
      split at all
      next marked =>
        rw [if_pos marked]
        have cut : rest.takeWhile Char.isDigit ++ rest.dropWhile Char.isDigit = rest :=
          List.takeWhile_append_dropWhile
        have digits : ∀ d ∈ rest.takeWhile Char.isDigit, d.isDigit = true := fun _ =>
          List.mem_takeWhile_imp
        rw [Decimal.run_eq] at all ⊢
        generalize rest.takeWhile Char.isDigit = fraction at all cut digits ⊢
        generalize rest.dropWhile Char.isDigit = behind at all cut ⊢
        cases behind with
        | nil => exact missing all
        | cons d more =>
            by_cases fits : isLetter 'S' d = true ∧ fraction.length ≤ 9
            · simp only [if_pos fits] at all ⊢
              rw [all] at cut
              rw [← cut]
              exact .broken form marked fits.2 digits ((Spelling.isLetter_iff rfl).mp fits.1)
            · simp only [if_neg fits] at all ⊢
              exact missing all
      next unmarked =>
        rw [if_neg unmarked]
        exact missing all
  next => exact missing all

end Part

/-! ## The whole text -/

variable {t : DurationText} {cs body : List Char}

theorem high_of_spelled {letter c : Char} (upper : letter.isUpper = true)
    (spelled : Spelling.lenient letter c) : 65 ≤ c.toNat :=
  Spelling.le_toNat_of_isLetter upper ((Spelling.isLetter_iff upper).mpr spelled)

theorem sign_front {negative : Bool} {sign rest : List Char} {p : Char}
    (signed : SignForm negative sign) (spelled : Spelling.lenient 'P' p) :
    Decimal.sign (sign ++ p :: rest) = (negative, p :: rest) := by
  have high := high_of_spelled rfl spelled
  apply Decimal.sign_eq signed
  rintro c ⟨⟩
  constructor <;> rintro rfl <;> exact absurd high (by decide)

theorem read?_of_form (form : Form .lenient t cs) : read? cs = some t := by
  cases form with
  | @dated negative sign days p d signed first days =>
      have counted := field_of_form rfl days (lacks_nil 'D')
      rw [List.append_nil] at counted
      simp only [read?, sign_front signed first, (Spelling.isLetter_iff rfl).mpr first, if_true,
        readBody, counted]
      rfl
  | @timed negative sign days hours minutes seconds fraction p t d h m s signed first daily middle
      hourly minutely secondly counts =>
      have noMinutes : Lacks 'M' seconds := lacks_of_seconds rfl (by decide) secondly
      have noHours : Lacks 'H' (minutes ++ seconds) :=
        lacks_of_part rfl rfl (by decide) minutely (lacks_of_seconds rfl (by decide) secondly)
      have noDays : Lacks 'D' (t :: (hours ++ (minutes ++ seconds))) :=
        lacks_of_letter (high_of_spelled rfl middle) _
      simp only [read?, sign_front signed first, (Spelling.isLetter_iff rfl).mpr first, if_true,
        readBody, field_of_form rfl daily noDays, (Spelling.isLetter_iff rfl).mpr middle,
        field_of_form rfl hourly noHours, field_of_form rfl minutely noMinutes,
        secondsField_of_form secondly]
      rw [Option.filter_some, if_pos]
      simpa [hasNumbers, Bool.or_assoc] using counts

theorem form_of_readBody {negative : Bool} {sign body : List Char} {p : Char}
    (signed : SignForm negative sign) (first : Spelling.lenient 'P' p)
    (got : readBody negative body = some t) (counts : t.hasNumbers = true) :
    Form .lenient t (sign ++ p :: body) := by
  obtain ⟨days, daily, split⟩ := form_of_field (show 'D'.isUpper = true from rfl) body
  simp only [readBody] at got
  generalize field 'D' body = dayField at daily split got
  obtain ⟨d, rest⟩ := dayField
  cases rest with
  | nil =>
      cases got
      cases d with
      | none => cases counts
      | some d =>
          rw [split, List.append_nil]
          exact .dated signed first daily
  | cons t rest =>
      by_cases middle : isLetter 'T' t = true
      · obtain ⟨hours, hourly, hourCut⟩ := form_of_field (show 'H'.isUpper = true from rfl) rest
        simp only [if_pos middle] at got
        generalize field 'H' rest = hourField at hourly hourCut got
        obtain ⟨minutes, minutely, minuteCut⟩ :=
          form_of_field (show 'M'.isUpper = true from rfl) hourField.2
        generalize field 'M' hourField.2 = minuteField at minutely minuteCut got
        split at got
        next all =>
          cases got
          rw [split, hourCut, minuteCut]
          exact .timed signed first daily ((Spelling.isLetter_iff rfl).mp middle) hourly minutely
            (form_of_secondsField all) (by simpa [hasNumbers, Bool.or_assoc] using counts)
        next => cases got
      · simp only [if_neg middle] at got
        cases got

theorem form_of_read? (got : read? cs = some t) : Form .lenient t cs := by
  obtain ⟨sign, signed, split⟩ := Decimal.exists_sign cs
  unfold read? at got
  generalize Decimal.sign cs = parts at signed split got
  obtain ⟨negative, rest⟩ := parts
  cases rest with
  | nil => cases got
  | cons p body =>
      by_cases first : isLetter 'P' p = true
      · simp only [if_pos first] at got
        obtain ⟨read, counts⟩ := Option.filter_eq_some_iff.mp got
        rw [split]
        exact form_of_readBody signed ((Spelling.isLetter_iff rfl).mp first) read counts
      · simp only [if_neg first] at got
        cases got

/-- The parts that are read are those of the form that the text has. -/
theorem read?_eq_some_iff : read? cs = some t ↔ Form .lenient t cs :=
  ⟨form_of_read?, read?_of_form⟩

theorem Form.short {spells : Spelling} (form : Form spells t cs) : t.fraction.length ≤ 9 := by
  cases form with
  | dated => exact Nat.zero_le 9
  | timed _ _ _ _ _ _ secondly =>
      cases secondly with
      | missing => exact Nat.zero_le 9
      | whole => exact Nat.zero_le 9
      | broken _ _ short => exact short

theorem Form.digits {spells : Spelling} (form : Form spells t cs) :
    ∀ c ∈ t.fraction, c.isDigit = true := by
  cases form with
  | dated => exact nofun
  | timed _ _ _ _ _ _ secondly =>
      cases secondly with
      | missing => exact nofun
      | whole => exact nofun
      | broken _ _ _ digits => exact digits

/-! ## The characters of a text -/

section Letters

variable {spells spells' : Spelling} {letter : Char} {part : Option SignedDigits}
  {front fraction : List Char}

theorem PartForm.congr (form : PartForm spells letter part front)
    (same : ∀ c ∈ front, spells letter c → spells' letter c) :
    PartForm spells' letter part front := by
  cases form with
  | missing => exact .missing
  | present form spelled => exact .present form (same _ (by simp) spelled)

theorem SecondsForm.congr (form : SecondsForm spells part fraction front)
    (same : ∀ c ∈ front, spells 'S' c → spells' 'S' c) :
    SecondsForm spells' part fraction front := by
  cases form with
  | missing => exact .missing
  | whole form spelled => exact .whole form (same _ (by simp) spelled)
  | broken form marked short digits spelled =>
      exact .broken form marked short digits (same _ (by simp) spelled)

/-- What letters may be spelled like matters only for the characters that are there. -/
theorem Form.congr (form : Form spells t cs)
    (same : ∀ letter, ∀ c ∈ cs, spells letter c → spells' letter c) : Form spells' t cs := by
  cases form with
  | dated signed first daily =>
      exact .dated signed (same _ _ (by simp) first)
        (daily.congr fun c member => same _ c (by simp [member]))
  | timed signed first daily middle hourly minutely secondly counts =>
      exact .timed signed (same _ _ (by simp) first)
        (daily.congr fun c member => same _ c (by simp [member])) (same _ _ (by simp) middle)
        (hourly.congr fun c member => same _ c (by simp [member]))
        (minutely.congr fun c member => same _ c (by simp [member]))
        (secondly.congr fun c member => same _ c (by simp [member])) counts

theorem Form.lenient (form : Form .cased t cs) : Form .lenient t cs :=
  form.congr fun _ _ _ spelled => .inl spelled

theorem Form.cased (form : Form .lenient t cs) (short : 'ſ' ∉ cs) : Form .cased t cs := by
  apply form.congr
  rintro letter c member (spelled | ⟨-, rfl⟩)
  · exact spelled
  · exact absurd member short

variable {p : Char → Prop} (digit : ∀ c, c.isDigit = true → p c)
  (mark : ∀ c ∈ ['-', '+', '.', ','], p c)
  (named : ∀ letter c, letter.isUpper = true → spells letter c → p c)

include mark

theorem forall_mem_sign {negative : Bool} {sign : List Char} (signed : SignForm negative sign) :
    ∀ c ∈ sign, p c := by
  cases signed with
  | missing => exact nofun
  | plus => exact List.forall_mem_singleton.mpr (mark '+' (by decide))
  | minus => exact List.forall_mem_singleton.mpr (mark '-' (by decide))

include digit

theorem forall_mem_number {n : SignedDigits} {number : List Char} (form : n.Form number) :
    ∀ c ∈ number, p c := by
  obtain ⟨-, digits, sign, signed, rfl⟩ := form
  rw [List.forall_mem_append]
  exact ⟨forall_mem_sign mark signed, fun c member => digit c (digits c member)⟩

include named

theorem PartForm.forall_mem (upper : letter.isUpper = true)
    (form : PartForm spells letter part front) : ∀ c ∈ front, p c := by
  cases form with
  | missing => exact nofun
  | present form spelled =>
      rw [List.forall_mem_append, List.forall_mem_singleton]
      exact ⟨forall_mem_number digit mark form, named _ _ upper spelled⟩

theorem SecondsForm.forall_mem (form : SecondsForm spells part fraction front) :
    ∀ c ∈ front, p c := by
  cases form with
  | missing => exact nofun
  | whole form spelled =>
      rw [List.forall_mem_append, List.forall_mem_singleton]
      exact ⟨forall_mem_number digit mark form, named _ _ rfl spelled⟩
  | broken form marked short digits spelled =>
      rw [List.forall_mem_append, List.forall_mem_cons, List.forall_mem_append,
        List.forall_mem_singleton]
      refine ⟨forall_mem_number digit mark form, ?_, fun c member => digit c (digits c member),
        named _ _ rfl spelled⟩
      rcases marked with rfl | rfl
      · exact mark '.' (by decide)
      · exact mark ',' (by decide)

theorem Form.forall_mem (form : Form spells t cs) : ∀ c ∈ cs, p c := by
  cases form with
  | dated signed first daily =>
      rw [List.forall_mem_append, List.forall_mem_cons]
      exact ⟨forall_mem_sign mark signed, named _ _ rfl first,
        daily.forall_mem digit mark named rfl⟩
  | timed signed first daily middle hourly minutely secondly _ =>
      simp only [List.forall_mem_append, List.forall_mem_cons]
      exact ⟨forall_mem_sign mark signed, named _ _ rfl first,
        daily.forall_mem digit mark named rfl, named _ _ rfl middle,
        hourly.forall_mem digit mark named rfl,
        minutely.forall_mem digit mark named rfl, secondly.forall_mem digit mark named⟩

end Letters

theorem Form.solid (form : Form .cased t cs) : ∀ c ∈ cs, isBlank c = false := by
  refine form.forall_mem (p := fun c => isBlank c = false) isBlank_of_isDigit
    (List.all_iff_forall_prop.mp rfl) ?_
  intro letter c upper spelled
  have bounds := Spelling.cased_bounds upper spelled
  simp only [Char.toNat] at bounds
  simp only [isBlank, Bool.or_eq_false_iff, Bool.and_eq_false_iff, decide_eq_false_iff_not,
    beq_eq_false_iff_ne, ne_eq, UInt32.le_iff_toNat_le, ← UInt32.toNat_inj]
  simp only [UInt32.reduceToNat]
  omega

theorem Form.no_long_s (form : Form .cased t cs) : 'ſ' ∉ cs := by
  have others : ∀ c ∈ cs, c ≠ 'ſ' := by
    refine form.forall_mem (p := (· ≠ 'ſ')) ?_ (List.all_iff_forall_prop.mp rfl) ?_
    · rintro c digit rfl
      exact absurd digit (by decide)
    · rintro letter c upper spelled rfl
      exact absurd (Spelling.cased_bounds upper spelled).2 (by decide)
  exact fun member => others _ member rfl

end DurationText

end SealedContainer
