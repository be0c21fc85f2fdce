import Mathlib.GroupTheory.OrderOfElement
import SealedContainer.Proofs.Curve.Group

/-!
The order of the generator of a curve. Main statement: `mul_generator`. The order is a prime, by
certificates as for the prime of the field, and that many times the generator is the neutral element.
To see that, multiples of the generator are computed without any inverse: coordinates are kept over a
common denominator, and if the last denominator is not zero then no other was.
-/

namespace SealedContainer

attribute [local instance] Curve.fact_prime

namespace Curve

def orderCertificates : Curve → List Certificate
  | secp256r1 => [
    ⟨3969899, 2, [2, 19, 104471]⟩,
    ⟨1002328039319, 19, [2, 126241, 3969899]⟩,
    ⟨191039911, 3, [2, 3, 5, 41, 155317]⟩,
    ⟨208150935158385979, 2, [2, 3, 11, 43, 127, 3023, 191039911]⟩,
    ⟨2624747550333869278416773953, 7, [2, 2, 2, 2, 2, 2, 3, 3, 1297, 16879, 208150935158385979]⟩,
    ⟨311245691, 2, [2, 5, 7, 17, 29, 29, 311]⟩,
    ⟨622491383, 5, [2, 311245691]⟩,
    ⟨9350987, 2, [2, 17, 229, 1201]⟩,
    ⟨187019741, 2, [2, 2, 5, 9350987]⟩,
    ⟨115792089210356248762697446949407573529996955224135760342422259061068512044369, 7, [2, 2, 2,
      2, 3, 71, 131, 373, 3407, 17449, 38189, 187019741, 622491383, 1002328039319,
      2624747550333869278416773953]⟩]
  | secp384r1 => [
    ⟨290064143, 5, [2, 79, 491, 3739]⟩,
    ⟨154950581, 2, [2, 2, 5, 17, 455737]⟩,
    ⟨120699720968197491947347, 3, [2, 3, 13, 34429, 154950581, 290064143]⟩,
    ⟨1124679999981664229965379347, 2, [2, 3, 1553, 120699720968197491947347]⟩,
    ⟨1436833069313, 3, [2, 2, 2, 2, 2, 2, 2, 2, 16979, 330563]⟩,
    ⟨1276987, 2, [2, 3, 29, 41, 179]⟩,
    ⟨8463023, 5, [2, 113, 37447]⟩,
    ⟨9863677, 5, [2, 2, 3, 3, 311, 881]⟩,
    ⟨37344768852931, 3, [2, 3, 5, 7, 11, 11, 149, 9863677]⟩,
    ⟨55942463741690639, 7, [2, 7, 107, 37344768852931]⟩,
    ⟨272109983, 5, [2, 19, 73, 233, 421]⟩,
    ⟨228572385721, 23, [2, 2, 2, 3, 5, 7, 272109983]⟩,
    ⟨23314383343543, 3, [2, 3, 17, 228572385721]⟩,
    ⟨426632512014427833817, 11, [2, 2, 2, 3, 13, 89, 659, 23314383343543]⟩,
    ⟨1495199339761412565498084319, 6, [2, 3, 3, 3, 64901, 426632512014427833817]⟩,
    ⟨17942392077136950785977011829, 6, [2, 2, 3, 1495199339761412565498084319]⟩,
    ⟨1059392654943455286185473617842338478315215895509773412096307, 2, [2, 251, 248431, 8463023,
      55942463741690639, 17942392077136950785977011829]⟩,
    ⟨3055465788140352002733946906144561090641249606160407884365391979704929268480326390471, 12, [2, 3,
      5, 151, 347, 1276987, 1436833069313,
      1059392654943455286185473617842338478315215895509773412096307]⟩,
    ⟨39402006196394479212279040100143613805079739270465446667946905279627659399113263569398956308152294913554433653942643,
      2, [2, 3, 3, 7, 7, 13, 1124679999981664229965379347,
      3055465788140352002733946906144561090641249606160407884365391979704929268480326390471]⟩]

theorem order_prime (c : Curve) : c.order.Prime := by
  have hold : Certificate.allHold [] c.orderCertificates = true := by cases c <;> decide +kernel
  have primes := Certificate.prime_of_allHold (List.forall_mem_nil _) hold
  have last : c.order ∈ c.orderCertificates.map Certificate.number := by
    cases c <;> decide +kernel
  obtain ⟨certificate, member, same⟩ := List.mem_map.mp last
  exact same ▸ primes certificate member

def minus (m a b : Nat) : Nat := a + (m - b % m)

theorem cast_minus (c : Curve) (a b : Nat) : ((minus c.prime a b : Nat) : ZMod c.prime) = a - b := by
  have low := Nat.le_of_lt (Nat.mod_lt b c.prime_prime.pos)
  rw [minus, Nat.cast_add, Nat.cast_sub low, ZMod.natCast_self, ZMod.natCast_mod, zero_sub,
    sub_eq_add_neg]

/-- A point by the numerators of its coordinates over the square and the cube of `z`. -/
structure Scaled where
  x : Nat
  y : Nat
  z : Nat

namespace Scaled

variable {c : Curve}

def double (c : Curve) (q : Scaled) : Scaled :=
  let p := c.prime
  let square := q.y * q.y % p
  let s := 4 * q.x * square % p
  let m := (3 * q.x * q.x + c.coeffA * (q.z * q.z % p * (q.z * q.z % p))) % p
  let x := minus p (m * m) (2 * s) % p
  ⟨x, minus p (m * minus p s x) (8 * square * square) % p, 2 * q.y * q.z % p⟩

def add (c : Curve) (x y : Nat) (q : Scaled) : Scaled :=
  let p := c.prime
  let square := q.z * q.z % p
  let h := minus p (x * square) q.x % p
  let r := minus p (y * (square * q.z % p)) q.y % p
  let cube := h * h % p * h % p
  let v := q.x * (h * h % p) % p
  let x' := minus p (r * r) (cube + 2 * v) % p
  ⟨x', minus p (r * minus p v x') (q.y * cube) % p, q.z * h % p⟩

/-- So many times the point `(x, y)`, with fuel for the bits of the number after its first. -/
def times (c : Curve) (x y : Nat) : (fuel n : Nat) → Scaled
  | 0, _ => ⟨x, y, 1⟩
  | fuel + 1, n =>
    if n ≤ 1 then ⟨x, y, 1⟩
    else
      let doubled := double c (times c x y fuel (n / 2))
      if n % 2 = 1 then add c x y doubled else doubled

structure Shows (q : Scaled) (x y : ZMod c.prime) : Prop where
  proper : (q.z : ZMod c.prime) ≠ 0
  first : (q.x : ZMod c.prime) = x * q.z ^ 2
  second : (q.y : ZMod c.prime) = y * q.z ^ 3

section Double

variable (c) (q : Scaled)

theorem double_x : ((double c q).x : ZMod c.prime) =
    (3 * q.x ^ 2 + c.coeffA * q.z ^ 4) ^ 2 - 8 * q.x * q.y ^ 2 := by
  simp only [double, ZMod.natCast_mod, cast_minus, Nat.cast_add, Nat.cast_mul]
  push_cast
  ring

theorem double_y : ((double c q).y : ZMod c.prime) =
    (3 * q.x ^ 2 + c.coeffA * q.z ^ 4) * (4 * q.x * q.y ^ 2 - (double c q).x) - 8 * q.y ^ 4 := by
  simp only [double, ZMod.natCast_mod, cast_minus, Nat.cast_add, Nat.cast_mul]
  push_cast
  ring

theorem double_z : ((double c q).z : ZMod c.prime) = 2 * q.y * q.z := by
  simp only [double, ZMod.natCast_mod, Nat.cast_mul, Nat.cast_ofNat]

end Double

section Add

variable (c) (x y : Nat) (q : Scaled)

theorem add_x : ((add c x y q).x : ZMod c.prime) =
    (y * q.z ^ 3 - q.y) ^ 2 - (x * q.z ^ 2 - q.x) ^ 3 - 2 * q.x * (x * q.z ^ 2 - q.x) ^ 2 := by
  simp only [add, ZMod.natCast_mod, cast_minus, Nat.cast_add, Nat.cast_mul]
  push_cast
  ring

theorem add_y : ((add c x y q).y : ZMod c.prime) =
    (y * q.z ^ 3 - q.y) * (q.x * (x * q.z ^ 2 - q.x) ^ 2 - (add c x y q).x) -
      q.y * (x * q.z ^ 2 - q.x) ^ 3 := by
  simp only [add, ZMod.natCast_mod, cast_minus, Nat.cast_add, Nat.cast_mul]
  push_cast
  ring

theorem add_z : ((add c x y q).z : ZMod c.prime) = q.z * (x * q.z ^ 2 - q.x) := by
  simp only [add, ZMod.natCast_mod, cast_minus, Nat.cast_mul]
  ring

end Add

variable {q : Scaled}

theorem Shows.double {x y : ZMod c.prime} {on : c.weierstrass.Nonsingular x y} (shows_ : Shows q x y)
    (proper : ((Scaled.double c q).z : ZMod c.prime) ≠ 0) :
    ∃ x' y' on', (.some x y on + .some x y on : c.Group) = .some x' y' on' ∧
      Shows (Scaled.double c q) x' y' := by
  obtain ⟨nonzero, first, second⟩ := shows_
  have twice : 2 * y ≠ 0 := by
    intro zero
    apply proper
    rw [double_z, second]
    linear_combination (q.z : ZMod c.prime) ^ 4 * zero
  have other : y ≠ c.weierstrass.negY x y := by
    intro same
    apply twice
    simp only [WeierstrassCurve.Affine.negY, weierstrass] at same
    linear_combination same
  have slope : c.weierstrass.slope x x y y * (2 * y) = 3 * x ^ 2 + c.coeffA := by
    rw [WeierstrassCurve.Affine.slope_of_Y_ne rfl other]
    have twice' : y - c.weierstrass.negY x y = 2 * y := by
      simp only [WeierstrassCurve.Affine.negY, weierstrass]
      ring
    rw [twice', div_mul_cancel₀ _ twice]
    simp only [weierstrass]
    ring
  have sameX : ((Scaled.double c q).x : ZMod c.prime) =
      c.weierstrass.addX x x (c.weierstrass.slope x x y y) * (Scaled.double c q).z ^ 2 := by
    rw [double_x, double_z, first, second]
    simp only [WeierstrassCurve.Affine.addX, weierstrass] at slope ⊢
    linear_combination -(q.z : ZMod c.prime) ^ 8 *
      (3 * x ^ 2 + c.coeffA + WeierstrassCurve.Affine.slope _ x x y y * (2 * y)) * slope
  refine ⟨_, _, _, WeierstrassCurve.Affine.Point.add_of_Y_ne other, proper, sameX, ?_⟩
  rw [double_y, sameX, double_z, first, second]
  simp only [WeierstrassCurve.Affine.addY, WeierstrassCurve.Affine.negAddY,
    WeierstrassCurve.Affine.negY]
  generalize c.weierstrass.addX x x (c.weierstrass.slope x x y y) = x'
  simp only [weierstrass] at slope ⊢
  linear_combination -(4 * y ^ 2 * (q.z : ZMod c.prime) ^ 12 * (x - x')) * slope

theorem Shows.add {x y : ZMod c.prime} {on : c.weierstrass.Nonsingular x y} {u v : Nat}
    {on' : c.weierstrass.Nonsingular (u : ZMod c.prime) v} (shows_ : Shows q x y)
    (proper : ((Scaled.add c u v q).z : ZMod c.prime) ≠ 0) :
    ∃ x' y' on'', (.some x y on + .some u v on' : c.Group) = .some x' y' on'' ∧
      Shows (Scaled.add c u v q) x' y' := by
  obtain ⟨nonzero, first, second⟩ := shows_
  have apart : (u : ZMod c.prime) - x ≠ 0 := by
    intro zero
    apply proper
    rw [add_z, first]
    linear_combination (q.z : ZMod c.prime) ^ 3 * zero
  have other : x ≠ u := fun same => apart (sub_eq_zero.mpr same.symm)
  have slope : c.weierstrass.slope x u y v * (u - x) = v - y := by
    rw [WeierstrassCurve.Affine.slope_of_X_ne other, ← neg_sub (u : ZMod c.prime) x,
      ← neg_sub (v : ZMod c.prime) y, neg_div_neg_eq, div_mul_cancel₀ _ apart]
  have sameX : ((Scaled.add c u v q).x : ZMod c.prime) =
      c.weierstrass.addX x u (c.weierstrass.slope x u y v) * (Scaled.add c u v q).z ^ 2 := by
    rw [add_x, add_z, first, second]
    simp only [WeierstrassCurve.Affine.addX, weierstrass] at slope ⊢
    linear_combination -(q.z : ZMod c.prime) ^ 6 *
      (v - y + WeierstrassCurve.Affine.slope _ x u y v * (u - x)) * slope
  refine ⟨_, _, _, WeierstrassCurve.Affine.Point.add_of_X_ne other, proper, sameX, ?_⟩
  rw [add_y, sameX, add_z, first, second]
  simp only [WeierstrassCurve.Affine.addY, WeierstrassCurve.Affine.negAddY,
    WeierstrassCurve.Affine.negY]
  generalize c.weierstrass.addX x u (c.weierstrass.slope x u y v) = x'
  simp only [weierstrass] at slope ⊢
  linear_combination -((q.z : ZMod c.prime) ^ 9 * (u - x) ^ 2 * (x - x')) * slope

section Times

variable {x y : Nat} (on : c.weierstrass.Nonsingular (x : ZMod c.prime) y)

include on

theorem times_shows {fuel n : Nat} (positive : 1 ≤ n) (bounded : n < 2 ^ (fuel + 1))
    (proper : ((times c x y fuel n).z : ZMod c.prime) ≠ 0) :
    ∃ x' y' on', n • (.some x y on : c.Group) = .some x' y' on' ∧
      Shows (times c x y fuel n) x' y' := by
  -- By induction on the fuel. A last denominator that is not zero has no factor that is.
  have single : ∃ x' y' on', 1 • (.some x y on : c.Group) = .some x' y' on' ∧
      Shows ⟨x, y, 1⟩ x' y' :=
    ⟨x, y, on, one_nsmul _, by simp, by simp, by simp⟩
  induction fuel generalizing n with
  | zero =>
      obtain rfl : n = 1 := by omega
      exact single
  | succ fuel ih =>
      rw [times] at proper ⊢
      split at proper
      next small =>
        obtain rfl : n = 1 := by omega
        exact single
      next large =>
        have half : n / 2 < 2 ^ (fuel + 1) := by
          rw [Nat.pow_succ] at bounded
          omega
        have doubled (proper : ((double c (times c x y fuel (n / 2))).z : ZMod c.prime) ≠ 0) :
            ∃ x' y' on', (2 * (n / 2)) • (.some x y on : c.Group) = .some x' y' on' ∧
              Shows (double c (times c x y fuel (n / 2))) x' y' := by
          have factor := proper
          rw [double_z] at factor
          obtain ⟨x', y', on', same, shows_⟩ := ih (by omega) half (right_ne_zero_of_mul factor)
          rw [mul_comm, mul_nsmul, same, two_nsmul]
          exact shows_.double proper
        rw [if_neg large]
        dsimp only at proper ⊢
        split at proper
        next odd =>
          have split : n = 2 * (n / 2) + 1 := by omega
          have factor := proper
          rw [add_z] at factor
          obtain ⟨x', y', on', same, shows_⟩ := doubled (left_ne_zero_of_mul factor)
          have next : n • (.some x y on : c.Group) = .some x' y' on' + .some x y on := by
            rw [split, succ_nsmul, same]
          rw [if_pos odd, next]
          exact shows_.add proper
        next even =>
          have split : 2 * (n / 2) = n := by omega
          rw [if_neg even]
          rw [split] at doubled
          exact doubled proper

end Times

/-- Whether one multiple less than the order is the point `(x, y)` turned round. -/
def closes (c : Curve) (x y : Nat) : Bool :=
  let q := times c x y (Nat.log2 c.order) (c.order - 1)
  q.z % c.prime ≠ 0 && q.x % c.prime = x * (q.z * q.z) % c.prime &&
    (q.y + y * (q.z * q.z * q.z)) % c.prime = 0

theorem order_nsmul {x y : Nat} (on : c.weierstrass.Nonsingular (x : ZMod c.prime) y)
    (closed : closes c x y = true) : c.order • (.some x y on : c.Group) = 0 := by
  have positive : 1 ≤ c.order - 1 := by cases c <;> decide
  have bounded : c.order - 1 < 2 ^ (Nat.log2 c.order + 1) :=
    Nat.lt_of_le_of_lt (Nat.sub_le _ _) Nat.lt_log2_self
  simp only [closes, Bool.and_eq_true, decide_eq_true_eq] at closed
  generalize shown : times c x y (Nat.log2 c.order) (c.order - 1) = q at closed
  obtain ⟨⟨proper, sameX⟩, sameY⟩ := closed
  have nonzero : (q.z : ZMod c.prime) ≠ 0 := by
    rwa [Ne, ZMod.natCast_eq_zero_iff, Nat.dvd_iff_mod_eq_zero]
  rw [← ZMod.natCast_eq_natCast_iff'] at sameX
  rw [← Nat.dvd_iff_mod_eq_zero, ← ZMod.natCast_eq_zero_iff] at sameY
  push_cast at sameX sameY
  obtain ⟨x', y', on', same, shows_⟩ := times_shows on positive bounded (shown ▸ nonzero)
  rw [shown] at shows_
  have first : x' = x := by
    apply mul_right_cancel₀ (pow_ne_zero 2 nonzero)
    linear_combination sameX - shows_.first
  have second : y' = c.weierstrass.negY x y := by
    apply mul_right_cancel₀ (pow_ne_zero 3 nonzero)
    simp only [WeierstrassCurve.Affine.negY, weierstrass]
    linear_combination sameY - shows_.second
  have split : c.order = c.order - 1 + 1 := by omega
  rw [split, succ_nsmul, same]
  exact WeierstrassCurve.Affine.Point.add_of_Y_eq first second

end Scaled

/-- The generator is a point of prime order. -/
theorem exists_generator (c : Curve) :
    ∃ p : c.Group, Point.residues p = Point.generator c ∧ addOrderOf p = c.order := by
  obtain ⟨x, y, same, on, closed⟩ : ∃ x y, Point.generator c = .affine x y ∧
      c.Contains x y ∧ Scaled.closes c x y = true := by
    cases c <;> exact ⟨_, _, rfl, by decide +kernel, by decide +kernel⟩
  have := Fact.mk c.order_prime
  refine ⟨_, (Point.residues_of_contains on).trans same.symm, ?_⟩
  exact addOrderOf_eq_prime (Scaled.order_nsmul _ closed)
    (WeierstrassCurve.Affine.Point.some_ne_zero _)

end Curve

namespace Point

variable {c : Curve}

theorem mul_generator (n : Nat) :
    (c.order ∣ n ∧ mul c n (generator c) = infinity) ∨
      ¬ c.order ∣ n ∧ ∃ x y, mul c n (generator c) = affine x y ∧ c.Contains x y := by
  obtain ⟨p, same, order⟩ := c.exists_generator
  rw [← same, mul_residues, ← order, addOrderOf_dvd_iff_nsmul_eq_zero]
  cases found : n • p with
  | zero => exact .inl ⟨rfl, rfl⟩
  | some x y on =>
      refine .inr ⟨WeierstrassCurve.Affine.Point.some_ne_zero on, x.val, y.val, rfl, ?_⟩
      exact (Curve.contains_val_iff x y).mpr ((Curve.nonsingular_iff x y).mp on)

theorem eq_of_mul_generator {m n : Nat} (first : m < c.order) (second : n < c.order)
    (equal : mul c m (generator c) = mul c n (generator c)) : m = n := by
  obtain ⟨p, same, order⟩ := c.exists_generator
  rw [← same, mul_residues, mul_residues] at equal
  rw [← order] at first second
  exact nsmul_injOn_Iio_addOrderOf first second (residues_injective equal)

end Point

end SealedContainer
