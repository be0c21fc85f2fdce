import Mathlib.Algebra.GroupWithZero.Nat
import SealedContainer.Calendar

/-!
Days and dates stand for each other. Main statements: `exists_ofDays`, `toDays_ofDays`. A year is as
long as its months together, and the year that a day falls in is found from the mean length of one.
-/

namespace SealedContainer

namespace Calendar

theorem isLeap_iff (year : Int) :
    isLeap year = true ↔ year % 4 = 0 ∧ (year % 100 ≠ 0 ∨ year % 400 = 0) := by
  simp [isLeap]

theorem yearStart_succ (year : Int) :
    yearStart (year + 1) = yearStart year + if isLeap year then 366 else 365 := by
  have leap := isLeap_iff year
  unfold yearStart
  by_cases long : isLeap year = true
  · rw [if_pos long]
    have := leap.mp long
    omega
  · rw [if_neg long]
    have := mt leap.mpr long
    omega

theorem yearStart_succ_eq_sum (year : Int) :
    yearStart (year + 1) = yearStart year + (monthLengths year).sum := by
  rw [yearStart_succ]
  cases leap : isLeap year <;> simp [monthLengths, leap]

/-- The mean length of a year misses the year of a day by one at most. -/
theorem yearOf_spec (day : Int) :
    yearStart (yearOf day) ≤ day ∧ day < yearStart (yearOf day + 1) := by
  unfold yearOf
  generalize guessed : day * 400 / 146097 + 1970 = guess
  dsimp only
  split
  next before =>
    rw [Int.sub_add_cancel]
    refine ⟨?_, before⟩
    unfold yearStart
    omega
  next notBefore =>
    split
    next behind =>
      refine ⟨behind, ?_⟩
      unfold yearStart
      omega
    next notBehind => exact ⟨Int.not_lt.mp notBefore, Int.not_le.mp notBehind⟩

theorem locate_spec {sizes : List Nat} {n : Nat} (below : n < sizes.sum) :
    (sizes.take (locate sizes n).1).sum + (locate sizes n).2 = n ∧
      (locate sizes n).2 < sizes.getD (locate sizes n).1 0 := by
  induction sizes generalizing n with
  | nil => simp at below
  | cons size rest ih =>
      unfold locate
      split
      next inside => simp [inside]
      next outside =>
        rw [List.sum_cons] at below
        obtain ⟨whole, part⟩ := ih (n := n - size) (by omega)
        refine ⟨?_, by simpa using part⟩
        simp only [List.take_succ_cons, List.sum_cons]
        omega

theorem day_in_year (day : Int) :
    (day - yearStart (yearOf day)).toNat < (monthLengths (yearOf day)).sum := by
  have bounds := yearOf_spec day
  rw [yearStart_succ_eq_sum] at bounds
  omega

end Calendar

namespace Date

open Calendar

variable (day : Int)

theorem exists_ofDays : (ofDays day).Exists := by
  have found := locate_spec (day_in_year day)
  simp only [Exists, ofDays, Nat.add_sub_cancel]
  omega

theorem toDays_ofDays : (ofDays day).toDays = day := by
  have found := locate_spec (day_in_year day)
  have bounds := yearOf_spec day
  have earlier (l : List Nat) : l.foldl Nat.add 0 = l.sum := List.sum_eq_foldl.symm
  simp only [toDays, ofDays, Nat.add_sub_cancel, earlier]
  omega

end Date

end SealedContainer
