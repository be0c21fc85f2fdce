import Mathlib.Data.ZMod.Basic
import Mathlib.Tactic.LinearCombination
import SealedContainer.Curve

/-!
Inverses modulo the prime of a curve. Main statement: `inverse_mul`. The steps of Euclid's algorithm
keep the multiples that they carry congruent to the numbers, and halve the product of the two numbers
at least, so the fuel lasts until one of them is zero.
-/

namespace SealedContainer.Curve

/-- One step leaves at most half of the product. -/
theorem step_bounded {fuel r s : Nat} (ordered : s ≤ r) (positive : 0 < s)
    (bounded : r * s < 2 ^ (fuel + 1)) : s * (r % s) < 2 ^ fuel := by
  have smaller : r % s < s := Nat.mod_lt r positive
  have once : 1 ≤ r / s := Nat.div_pos ordered positive
  have half : 2 * (r % s) ≤ r := by
    calc 2 * (r % s)
      _ ≤ s * 1 + r % s := by omega
      _ ≤ s * (r / s) + r % s := Nat.add_le_add_right (Nat.mul_le_mul_left s once) _
      _ = r := Nat.div_add_mod r s
  have product : 2 * (s * (r % s)) ≤ r * s := by
    calc 2 * (s * (r % s))
      _ = s * (2 * (r % s)) := by rw [Nat.mul_left_comm]
      _ ≤ s * r := Nat.mul_le_mul_left s half
      _ = r * s := Nat.mul_comm s r
  rw [Nat.pow_succ] at bounded
  omega

theorem euclid_mul {R : Type} [CommRing R] {n : R} {fuel r s : Nat} {t u : Int}
    (first : (t : R) * n = r) (second : (u : R) * n = s) (ordered : s ≤ r)
    (bounded : r * s < 2 ^ fuel) : (euclid (fuel + 1) r s t u : R) * n = (Nat.gcd r s : Nat) := by
  induction fuel generalizing r s t u with
  | zero =>
      have zero : s = 0 := by
        rcases Nat.mul_eq_zero.mp (Nat.lt_one_iff.mp bounded) with rfl | zero
        · exact Nat.le_zero.mp ordered
        · exact zero
      rw [euclid, if_pos zero, zero, Nat.gcd_zero_right, first]
  | succ fuel ih =>
      rw [euclid]
      split
      next zero => rw [zero, Nat.gcd_zero_right, first]
      next nonzero =>
        have positive : 0 < s := Nat.pos_of_ne_zero nonzero
        have rest : ((t - (r / s : Nat) * u : Int) : R) * n = (r % s : Nat) := by
          have division : (s : R) * (r / s : Nat) + (r % s : Nat) = r := by
            rw [← Nat.cast_mul, ← Nat.cast_add, Nat.div_add_mod]
          rw [Int.cast_sub, Int.cast_mul, Int.cast_natCast]
          linear_combination first - (r / s : Nat) * second - division
        have divisor : Nat.gcd s (r % s) = Nat.gcd r s := by
          rw [Nat.gcd_comm s, ← Nat.gcd_rec, Nat.gcd_comm]
        rw [ih second rest (Nat.le_of_lt (Nat.mod_lt r positive)) (step_bounded ordered positive
          bounded), divisor]

theorem inverse_mul_eq_gcd {m : Nat} (positive : 0 < m) (n : Nat) :
    (inverse m n : ZMod m) * n = (Nat.gcd m (n % m) : Nat) := by
  have : NeZero m := ⟨Nat.ne_of_gt positive⟩
  have below : n % m < m := Nat.mod_lt n positive
  have bounded : m * (n % m) < 2 ^ (2 * Nat.log2 m + 2) := by
    calc m * (n % m)
      _ < m * m := Nat.mul_lt_mul_of_pos_left below positive
      _ ≤ 2 ^ (Nat.log2 m + 1) * 2 ^ (Nat.log2 m + 1) :=
        Nat.mul_le_mul (Nat.le_of_lt Nat.lt_log2_self) (Nat.le_of_lt Nat.lt_log2_self)
      _ = 2 ^ (2 * Nat.log2 m + 2) := by
        rw [← Nat.pow_add]
        congr 1
        omega
  have first : ((0 : Int) : ZMod m) * n = m := by simp
  have second : ((1 : Int) : ZMod m) * n = (n % m : Nat) := by simp
  have ended := euclid_mul first second (Nat.le_of_lt below) bounded
  have reduced (k : Int) : ((k % m).toNat : ZMod m) = k := by
    have positive : 0 ≤ k % m := Int.emod_nonneg k (by omega)
    rw [← Int.cast_natCast, Int.toNat_of_nonneg positive, ZMod.intCast_mod]
  rw [inverse, reduced, ended]

/-- Below the prime of a curve every number but zero has an inverse. -/
theorem inverse_mul {m n : Nat} (prime : m.Prime) (nonzero : (n : ZMod m) ≠ 0) :
    (inverse m n : ZMod m) * n = 1 := by
  have coprime : Nat.gcd m (n % m) = 1 := by
    have divides : ¬ m ∣ n := fun divides => nonzero ((ZMod.natCast_eq_zero_iff n m).mpr divides)
    rw [Nat.gcd_comm, ← Nat.gcd_rec m n]
    exact (Nat.Prime.coprime_iff_not_dvd prime).mpr divides
  rw [inverse_mul_eq_gcd prime.pos, coprime, Nat.cast_one]

end SealedContainer.Curve
