import SealedContainer.Duration
import SealedContainer.Text

/-!
Durations written in the ISO 8601 form `PnDTnHnMn.nS`.

Only days, hours, minutes and seconds are accepted, since years, months and weeks have no fixed
length. Each number may have a sign, and so may the whole. Reading is in two steps: the shape of
the text, then the number of nanoseconds that the shape stands for.
-/

namespace SealedContainer

inductive DurationError where
  | malformed (text : String)
  | outOfRange (text : String)
  deriving DecidableEq, Repr

def DurationError.message : DurationError → String
  | malformed text => s!"invalid ISO-8601 duration: '{text}'"
  | outOfRange text => s!"duration out of range: '{text}'"

structure SignedDigits where
  negative : Bool
  digits : List Char
  deriving DecidableEq, Repr

/-- The parts of a duration text, as written. A part that is not there is `none`. -/
structure DurationText where
  negative : Bool
  days : Option SignedDigits
  /-- Whether the letter `T` is there. -/
  timed : Bool
  hours : Option SignedDigits
  minutes : Option SignedDigits
  seconds : Option SignedDigits
  fraction : List Char
  deriving DecidableEq, Repr

namespace SignedDigits

def read (cs : List Char) : Option (SignedDigits × List Char) :=
  let signed := Decimal.sign cs
  let run := Decimal.run signed.2
  if run.1 = [] then none else some (⟨signed.1, run.1⟩, run.2)

def value (s : SignedDigits) : Int :=
  if s.negative then -(Decimal.value s.digits : Int) else Decimal.value s.digits

def value? (s : SignedDigits) : Option Int :=
  if -(2 ^ 63) ≤ s.value ∧ s.value < 2 ^ 63 then some s.value else none

end SignedDigits

namespace DurationText

/-- Whether `c` is `letter` in either case. The long s is a lower-case `S`. -/
def isLetter (letter c : Char) : Bool := c.toUpper == letter || (letter == 'S' && c == 'ſ')

def field (letter : Char) (cs : List Char) : Option SignedDigits × List Char :=
  match SignedDigits.read cs with
  | some (number, c :: rest) => if isLetter letter c then (some number, rest) else (none, cs)
  | _ => (none, cs)

def secondsField (cs : List Char) : Option SignedDigits × List Char × List Char :=
  match SignedDigits.read cs with
  | some (number, c :: rest) =>
    if isLetter 'S' c then (some number, [], rest)
    else if c = '.' ∨ c = ',' then
      match Decimal.run rest with
      | (fraction, d :: rest) =>
        if isLetter 'S' d ∧ fraction.length ≤ 9 then (some number, fraction, rest)
        else (none, [], cs)
      | _ => (none, [], cs)
    else (none, [], cs)
  | _ => (none, [], cs)

def readBody (negative : Bool) (cs : List Char) : Option DurationText :=
  let days := field 'D' cs
  match days.2 with
  | [] => some ⟨negative, days.1, false, none, none, none, []⟩
  | c :: rest =>
    if isLetter 'T' c then
      let hours := field 'H' rest
      let minutes := field 'M' hours.2
      let seconds := secondsField minutes.2
      if seconds.2.2 = [] then
        some ⟨negative, days.1, true, hours.1, minutes.1, seconds.1, seconds.2.1⟩
      else none
    else none

/-- Whether there is a number, and one after `T` if there is a `T`. -/
def hasNumbers (t : DurationText) : Bool :=
  if t.timed then t.hours.isSome || t.minutes.isSome || t.seconds.isSome else t.days.isSome

def read? (cs : List Char) : Option DurationText :=
  match Decimal.sign cs with
  | (negative, c :: rest) =>
    if isLetter 'P' c then (readBody negative rest).filter hasNumbers else none
  | _ => none

def fractionNanos (t : DurationText) : Int :=
  let n : Int := Decimal.value t.fraction * 10 ^ (9 - t.fraction.length)
  if (t.seconds.map (·.negative)).getD false then -n else n

def number? : Option SignedDigits → Option Int
  | none => some 0
  | some digits => digits.value?

def numbers? (t : DurationText) : Option (List Int) := do
  let seconds ← number? t.seconds
  let days ← number? t.days
  let hours ← number? t.hours
  let minutes ← number? t.minutes
  return [days * 86400 * 10 ^ 9, hours * 3600 * 10 ^ 9, minutes * 60 * 10 ^ 9, seconds * 10 ^ 9,
    t.fractionNanos]

/-- The sum of the parts, each of which has to be in range, and so has every partial sum. -/
def total? (parts : List Int) : Option Duration :=
  parts.foldl (fun sum part => do (← sum).add? (← Duration.ofNanos? part)) (some Duration.zero)

end DurationText

/-- Reads a duration such as `P1095D`, `PT24H` or `-PT1.5S`, ignoring white space around it. -/
def Duration.parse (text : String) : Except DurationError Duration :=
  match DurationText.read? (trimmed text) with
  | none => throw (.malformed text)
  | some shape =>
    match shape.numbers? with
    | none => throw (.malformed text)
    | some parts =>
      match DurationText.total? parts with
      | none => throw (.outOfRange text)
      | some total => return if shape.negative then -total else total

end SealedContainer
