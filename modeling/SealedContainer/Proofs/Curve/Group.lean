import Mathlib.AlgebraicGeometry.EllipticCurve.Affine.Point
import SealedContainer.Proofs.Curve.Inverse
import SealedContainer.Proofs.Curve.Prime

/-!
The points of a curve are the group that its equation has. Main statements: `add_residues` and
`mul_residues`. Chords and tangents on reduced coordinates are the addition of the group over the
field of residues, and doubling and adding is its scalar multiplication.
-/

namespace SealedContainer

theorem Curve.fact_prime (c : Curve) : Fact c.prime.Prime := ⟨c.prime_prime⟩

attribute [local instance] Curve.fact_prime

namespace Curve

/-- The equation `y² = x³ + ax + b` over the residues. -/
def weierstrass (c : Curve) : WeierstrassCurve.Affine (ZMod c.prime) :=
  ⟨0, 0, 0, c.coeffA, c.coeffB⟩

abbrev Group (c : Curve) : Type := c.weierstrass.Point

variable {c : Curve}

theorem equation_iff (x y : ZMod c.prime) :
    c.weierstrass.Equation x y ↔ y * y = x * x * x + c.coeffA * x + c.coeffB := by
  rw [WeierstrassCurve.Affine.equation_iff]
  simp only [weierstrass]
  constructor <;> intro equation
  · linear_combination equation
  · linear_combination equation

theorem discriminant_ne_zero (c : Curve) : c.weierstrass.Δ ≠ 0 := by
  have value : c.weierstrass.Δ =
      -((16 * (4 * c.coeffA ^ 3 + 27 * c.coeffB ^ 2) : Nat) : ZMod c.prime) := by
    simp only [weierstrass, WeierstrassCurve.Δ, WeierstrassCurve.b₂, WeierstrassCurve.b₄,
      WeierstrassCurve.b₆, WeierstrassCurve.b₈]
    push_cast
    ring
  rw [value, neg_ne_zero, Ne, ZMod.natCast_eq_zero_iff]
  cases c <;> decide +kernel

theorem nonsingular_iff (x y : ZMod c.prime) :
    c.weierstrass.Nonsingular x y ↔ c.weierstrass.Equation x y :=
  (WeierstrassCurve.Affine.equation_iff_nonsingular_of_Δ_ne_zero c.discriminant_ne_zero).symm

theorem contains_val_iff (x y : ZMod c.prime) :
    c.Contains x.val y.val ↔ c.weierstrass.Equation x y := by
  rw [equation_iff, Contains, ← ZMod.natCast_eq_natCast_iff']
  simp only [x.val_lt, y.val_lt, true_and, Nat.cast_add, Nat.cast_mul, ZMod.natCast_zmod_val]

end Curve

namespace Point

variable {c : Curve}

def residues : c.Group → Point
  | .zero => infinity
  | .some x y _ => affine x.val y.val

theorem nonsingular_of_contains {x y : Nat} (on : c.Contains x y) :
    c.weierstrass.Nonsingular (x : ZMod c.prime) y := by
  rw [Curve.nonsingular_iff, ← Curve.contains_val_iff, ZMod.val_cast_of_lt on.1,
    ZMod.val_cast_of_lt on.2.1]
  exact on

theorem residues_of_contains {x y : Nat} (on : c.Contains x y) :
    residues (.some x y (nonsingular_of_contains on)) = affine x y := by
  rw [residues, ZMod.val_cast_of_lt on.1, ZMod.val_cast_of_lt on.2.1]

theorem chord_val {slope : Nat} {ℓ x₁ y₁ x₂ : ZMod c.prime} (same : (slope : ZMod c.prime) = ℓ) :
    chord c slope x₁.val y₁.val x₂.val =
      affine (c.weierstrass.addX x₁ x₂ ℓ).val (c.weierstrass.addY x₁ x₂ y₁ ℓ).val := by
  have low₁ := x₁.val_lt
  have low₂ := x₂.val_lt
  have low := y₁.val_lt
  have first : (slope * slope + 2 * c.prime - x₁.val - x₂.val) % c.prime =
      (c.weierstrass.addX x₁ x₂ ℓ).val := by
    rw [← ZMod.val_natCast]
    congr 1
    rw [Nat.cast_sub (by omega), Nat.cast_sub (by omega)]
    push_cast
    rw [ZMod.natCast_zmod_val, ZMod.natCast_zmod_val, ZMod.natCast_self, same]
    simp only [WeierstrassCurve.Affine.addX, Curve.weierstrass]
    ring
  have reduced := (c.weierstrass.addX x₁ x₂ ℓ).val_lt
  have second : (slope * (x₁.val + c.prime - (c.weierstrass.addX x₁ x₂ ℓ).val) + c.prime -
      y₁.val) % c.prime = (c.weierstrass.addY x₁ x₂ y₁ ℓ).val := by
    rw [← ZMod.val_natCast]
    congr 1
    rw [Nat.cast_sub (by omega), Nat.cast_add, Nat.cast_mul, Nat.cast_sub (by omega)]
    push_cast
    rw [ZMod.natCast_zmod_val, ZMod.natCast_zmod_val, ZMod.natCast_zmod_val, ZMod.natCast_self, same]
    simp only [WeierstrassCurve.Affine.addY, WeierstrassCurve.Affine.negAddY,
      WeierstrassCurve.Affine.negY, Curve.weierstrass]
    ring
  simp only [chord, first, second]

theorem val_inj {x y : ZMod c.prime} : x.val = y.val ↔ x = y :=
  (ZMod.val_injective c.prime).eq_iff

theorem residues_injective : Function.Injective (residues : c.Group → Point) := by
  intro p q same
  cases p with
  | zero =>
      cases q with
      | zero => rfl
      | some => cases same
  | some x y =>
      cases q with
      | zero => cases same
      | some x' y' =>
          simp only [residues, affine.injEq, val_inj] at same
          obtain ⟨rfl, rfl⟩ := same
          rfl

theorem tangent_slope {x y : ZMod c.prime} (other : y ≠ c.weierstrass.negY x y) :
    (((3 * x.val * x.val + c.coeffA) * Curve.inverse c.prime (2 * y.val) % c.prime : Nat) :
      ZMod c.prime) = c.weierstrass.slope x x y y := by
  have twice : y - c.weierstrass.negY x y = (2 * y.val : Nat) := by
    simp only [WeierstrassCurve.Affine.negY, Curve.weierstrass]
    push_cast
    rw [ZMod.natCast_zmod_val]
    ring
  have nonzero : ((2 * y.val : Nat) : ZMod c.prime) ≠ 0 := twice ▸ sub_ne_zero.mpr other
  rw [WeierstrassCurve.Affine.slope_of_Y_ne rfl other, twice, eq_div_iff nonzero, ZMod.natCast_mod,
    Nat.cast_mul, mul_assoc, Curve.inverse_mul c.prime_prime nonzero]
  push_cast
  rw [ZMod.natCast_zmod_val]
  simp only [Curve.weierstrass]
  ring

theorem chord_slope {x₁ x₂ : ZMod c.prime} (y₁ y₂ : ZMod c.prime) (other : x₁ ≠ x₂) :
    (((y₂.val + c.prime - y₁.val) * Curve.inverse c.prime (x₂.val + c.prime - x₁.val) % c.prime :
      Nat) : ZMod c.prime) = c.weierstrass.slope x₁ x₂ y₁ y₂ := by
  have difference (a b : ZMod c.prime) : ((b.val + c.prime - a.val : Nat) : ZMod c.prime) = b - a := by
    have low := a.val_lt
    rw [Nat.cast_sub (by omega), Nat.cast_add, ZMod.natCast_self, ZMod.natCast_zmod_val,
      ZMod.natCast_zmod_val, add_zero]
  have nonzero : ((x₂.val + c.prime - x₁.val : Nat) : ZMod c.prime) ≠ 0 := by
    rw [difference]
    exact sub_ne_zero.mpr other.symm
  rw [WeierstrassCurve.Affine.slope_of_X_ne other, eq_div_iff (sub_ne_zero.mpr other),
    ZMod.natCast_mod, Nat.cast_mul, difference]
  have inverse := Curve.inverse_mul c.prime_prime nonzero
  rw [difference] at inverse
  linear_combination -(y₂ - y₁) * inverse

/-- Chords and tangents add. -/
theorem add_residues (p q : c.Group) : add c (residues p) (residues q) = residues (p + q) := by
  cases p with
  | zero => rfl
  | some x₁ y₁ on₁ =>
      cases q with
      | zero => rfl
      | some x₂ y₂ on₂ =>
          have opposite : (y₁.val + y₂.val) % c.prime = 0 ↔ y₁ = c.weierstrass.negY x₂ y₂ := by
            rw [← ZMod.val_natCast, ZMod.val_eq_zero, Nat.cast_add, ZMod.natCast_zmod_val,
              ZMod.natCast_zmod_val, add_eq_zero_iff_eq_neg]
            simp [WeierstrassCurve.Affine.negY, Curve.weierstrass]
          simp only [residues, add, val_inj, opposite]
          split
          next sameX =>
            split
            next sameY =>
              rw [WeierstrassCurve.Affine.Point.add_of_Y_eq sameX sameY]
            next other =>
              have sameY := WeierstrassCurve.Affine.Y_eq_of_Y_ne on₁.1 on₂.1 sameX other
              subst sameX sameY
              rw [WeierstrassCurve.Affine.Point.add_of_Y_ne other]
              exact chord_val (tangent_slope other)
          next other =>
            rw [WeierstrassCurve.Affine.Point.add_of_X_ne other]
            exact chord_val (chord_slope y₁ y₂ other)

theorem multiply_residues {fuel n : Nat} (bounded : n < 2 ^ fuel) (p : c.Group) :
    multiply c fuel n (residues p) = residues (n • p) := by
  -- By induction on the fuel, a bit of the multiplier at a time.
  induction fuel generalizing n p with
  | zero =>
      obtain rfl : n = 0 := by simpa using bounded
      rw [zero_nsmul]
      rfl
  | succ fuel ih =>
      have half : n / 2 < 2 ^ fuel := by
        rw [Nat.pow_succ] at bounded
        omega
      have doubled : (n / 2) • (p + p) = (2 * (n / 2)) • p := by rw [← two_nsmul, ← mul_nsmul]
      simp only [multiply, add_residues, ih half, doubled]
      split
      next odd =>
        have split : n = 2 * (n / 2) + 1 := by omega
        rw [← succ_nsmul', ← split]
      next even =>
        have split : n = 2 * (n / 2) := by omega
        rw [← split]

/-- Doubling and adding multiplies. -/
theorem mul_residues (n : Nat) (p : c.Group) : mul c n (residues p) = residues (n • p) :=
  multiply_residues Nat.lt_log2_self p

theorem mul_mul_comm {x y : Nat} (on : c.Contains x y) (m n : Nat) :
    mul c m (mul c n (affine x y)) = mul c n (mul c m (affine x y)) := by
  rw [← residues_of_contains on, mul_residues, mul_residues, mul_residues, mul_residues, smul_comm]

end Point

end SealedContainer
