import SealedContainer.Instant
import SealedContainer.Text.Scan

/-!
Instants written as a date and a time of day. There is one way of writing and three of reading:
strictly with an offset from universal time, without one, and loosely as in stored records.
-/

namespace SealedContainer

structure ClockTime where
  date : Date
  hour : Nat
  minute : Nat
  second : Nat
  nanos : Nat
  deriving DecidableEq, Repr

namespace ClockTime

def Exists (t : ClockTime) : Prop :=
  t.date.Exists ∧ t.hour < 24 ∧ t.minute < 60 ∧ t.second ≤ 60 ∧ t.nanos < 10 ^ 9

instance (t : ClockTime) : Decidable t.Exists := by unfold Exists; infer_instance

def toInstant? (t : ClockTime) (offset : Int) : Option Instant :=
  if t.Exists then
    let minutes := t.hour * 60 + t.minute
    let leap : Nat := if t.second = 60 then 1 else 0
    Instant.of?
      (t.date.toDays * Instant.secondsPerDay + minutes * 60 + t.second - leap - offset)
      (t.nanos + leap * Duration.nanosPerSecond)
  else none

/-- What clocks `offset` seconds ahead of universal time show, for an offset in whole minutes. -/
def ofInstant (t : Instant) (offset : Int) : ClockTime :=
  let seconds := t.seconds + offset
  let inDay := (seconds % Instant.secondsPerDay).toNat
  let leap := t.nanos / Duration.nanosPerSecond
  ⟨Date.ofDays (seconds / Instant.secondsPerDay), inDay / 3600, inDay / 60 % 60, inDay % 60 + leap,
    t.nanos % Duration.nanosPerSecond⟩

def PlainYear (year : Int) : Prop := 0 ≤ year ∧ year ≤ 9999

instance (year : Int) : Decidable (PlainYear year) := by unfold PlainYear; infer_instance

def yearText (year : Int) : String :=
  if PlainYear year then Decimal.padded 4 year.toNat
  else (if year < 0 then "-" else "+") ++ Decimal.padded 4 year.natAbs

/-- No fraction, or as many digits after the point as are needed: three, six or nine. -/
def fractionText (nanos : Nat) : String :=
  if nanos = 0 then ""
  else if nanos % 1000000 = 0 then "." ++ Decimal.padded 3 (nanos / 1000000)
  else if nanos % 1000 = 0 then "." ++ Decimal.padded 6 (nanos / 1000)
  else "." ++ Decimal.padded 9 nanos

def text (t : ClockTime) : String :=
  let two := Decimal.padded 2
  yearText t.date.year ++ "-" ++ two t.date.month ++ "-" ++ two t.date.day ++ "T" ++
    two t.hour ++ ":" ++ two t.minute ++ ":" ++ two t.second ++ fractionText t.nanos

/-- The digits after a point, of which those beyond the ninth do not count; none without a point. -/
def readFraction : Scan Nat := do
  if ← Scan.accept '.' then
    let digits := (← get).takeWhile Char.isDigit
    if digits = [] then failure
    Scan.skip Char.isDigit
    let kept := digits.take 9
    return Decimal.value kept * 10 ^ (9 - kept.length)
  else return 0

def readYear : Scan Int := do
  if ← Scan.accept '-' then return -(← Scan.number)
  else if ← Scan.accept '+' then return ← Scan.number
  else return ← Scan.upTo 4

def readFixed : Scan ClockTime := do
  let year ← Scan.exactly 4
  Scan.char '-'
  let month ← Scan.exactly 2
  Scan.char '-'
  let day ← Scan.exactly 2
  discard (Scan.one fun c => c == 'T' || c == 't' || c == ' ')
  let hour ← Scan.exactly 2
  Scan.char ':'
  let minute ← Scan.exactly 2
  Scan.char ':'
  let second ← Scan.exactly 2
  let nanos ← readFraction
  return ⟨⟨year, month, day⟩, hour, minute, second, nanos⟩

/--
A date and a time of day, numbers of one or two digits allowed and white space before each. Before
a separator `gap` is passed over.
-/
def readLoose (gap : Scan Unit) (isMiddle : Char → Bool) : Scan ClockTime := do
  let blank := Scan.skip isBlank
  blank
  let year ← readYear
  gap
  Scan.char '-'
  blank
  let month ← Scan.upTo 2
  gap
  Scan.char '-'
  blank
  let day ← Scan.upTo 2
  discard (Scan.one isMiddle)
  blank
  let hour ← Scan.upTo 2
  gap
  Scan.char ':'
  blank
  let minute ← Scan.upTo 2
  gap
  Scan.char ':'
  blank
  let second ← Scan.upTo 2
  let nanos ← readFraction
  return ⟨⟨year, month, day⟩, hour, minute, second, nanos⟩

def readOffset (separator : Scan Unit) : Scan Int := do
  let sign ← Scan.one fun c => c == 'Z' || c == 'z' || c == '+' || c == '-' || c == '\u2212'
  if sign == 'Z' || sign == 'z' then return 0
  let hours ← Scan.exactly 2
  separator
  let minutes ← Scan.exactly 2
  if hours < 24 ∧ minutes < 60 then
    let ahead : Int := (hours * 60 + minutes) * 60
    return if sign == '+' then ahead else -ahead
  else failure

def readZone : Scan Int := do
  let rest ← get
  if (rest.take 3).map Char.toUpper = ['U', 'T', 'C'] then
    set (rest.drop 3)
    return 0
  else readOffset (Scan.skip fun c => c == ':' || isBlank c)

end ClockTime

namespace Instant

def text (t : Instant) : String := (ClockTime.ofInstant t 0).text ++ "Z"

def parseFixed (cs : List Char) : Option Instant := do
  let (time, offset) ← Scan.whole (do
    let time ← ClockTime.readFixed
    return (time, ← ClockTime.readOffset (Scan.char ':'))) cs
  time.toInstant? offset

def parseBare (cs : List Char) : Option Instant := do
  let time ← Scan.whole (ClockTime.readLoose (pure ()) (· == 'T')) cs
  time.toInstant? 0

/-- Reads what a client sends: with an offset, or else as universal time. -/
def parse (text : String) : Option Instant :=
  let cs := trimmed text
  parseFixed cs <|> parseBare cs

/-- Reads what a stored record holds, with white space between the parts. -/
def parseStored (text : String) : Option Instant := do
  let (time, offset) ← Scan.whole (do
    let time ← ClockTime.readLoose (Scan.skip isBlank) fun c => c == 'T' || c == 't' || c == ' '
    Scan.skip isBlank
    let offset ← ClockTime.readZone
    Scan.skip isBlank
    return (time, offset)) text.toList
  time.toInstant? offset

end Instant

end SealedContainer
