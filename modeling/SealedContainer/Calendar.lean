/-!
The Gregorian calendar: dates and their place in the count of days from the first of January 1970.
-/

namespace SealedContainer

structure Date where
  year : Int
  month : Nat
  day : Nat
  deriving DecidableEq, Repr

namespace Calendar

def isLeap (year : Int) : Bool :=
  year % 4 == 0 && (year % 100 != 0 || year % 400 == 0)

def monthLengths (year : Int) : List Nat :=
  [31, if isLeap year then 29 else 28, 31, 30, 31, 30, 31, 31, 30, 31, 30, 31]

def yearStart (year : Int) : Int :=
  365 * (year - 1970) + (year - 1) / 4 - (year - 1) / 100 + (year - 1) / 400 - 477

/-- The year that a day falls in. The mean length of a year gives it up to one. -/
def yearOf (day : Int) : Int :=
  let guess := day * 400 / 146097 + 1970
  if day < yearStart guess then guess - 1
  else if yearStart (guess + 1) ≤ day then guess + 1
  else guess

def locate : List Nat → Nat → Nat × Nat
  | [], n => (0, n)
  | size :: rest, n =>
    if n < size then (0, n)
    else
      let (i, left) := locate rest (n - size)
      (i + 1, left)

end Calendar

namespace Date

def Exists (d : Date) : Prop :=
  1 ≤ d.month ∧ 1 ≤ d.day ∧ d.day ≤ (Calendar.monthLengths d.year).getD (d.month - 1) 0

instance (d : Date) : Decidable d.Exists := by unfold Exists; infer_instance

def toDays (d : Date) : Int :=
  let earlier : Nat := ((Calendar.monthLengths d.year).take (d.month - 1)).foldl Nat.add 0
  Calendar.yearStart d.year + earlier + (d.day - 1)

def ofDays (day : Int) : Date :=
  let year := Calendar.yearOf day
  let (month, left) :=
    Calendar.locate (Calendar.monthLengths year) (day - Calendar.yearStart year).toNat
  ⟨year, month + 1, left + 1⟩

end Date

end SealedContainer
