import Mathlib.FieldTheory.Finite.Basic
import SealedContainer.Proofs.Curve.Prime
import SealedContainer.Proofs.Key.Codec

/-!
Square roots modulo the prime of a curve, and points in compressed form. Main statement:
`decodeAny?_compressed`. The power that is taken for a root of a square is one of its two roots, the
other is the difference to the prime, and as the prime is odd the parity of a root tells which it is.
-/

namespace SealedContainer

namespace Curve

variable (c : Curve)

/-- The prime is three modulo four, so a power of every square is a root of it. -/
theorem four_dvd_prime_succ : (c.prime + 1) / 4 * 4 = c.prime + 1 := by
  cases c <;> decide +kernel

theorem square_pow_square (y : ZMod c.prime) : ((y * y) ^ ((c.prime + 1) / 4)) ^ 2 = y * y := by
  have := Fact.mk c.prime_prime
  calc ((y * y) ^ ((c.prime + 1) / 4)) ^ 2
    _ = y ^ ((c.prime + 1) / 4 * 4) := by
      rw [← pow_two, ← pow_mul, ← pow_mul]
      congr 1
      ring
    _ = y ^ c.prime * y := by rw [c.four_dvd_prime_succ, pow_succ]
    _ = y * y := by rw [ZMod.pow_card]

theorem root?_of_square {n y : Nat} (reduced : y < c.prime) (square : y * y % c.prime = n % c.prime) :
    ∃ r, c.root? n = some r ∧ (r = y ∨ r + y = c.prime) := by
  have := Fact.mk c.prime_prime
  let r := n ^ ((c.prime + 1) / 4) % c.prime
  have power : powMod c.prime (Nat.log2 ((c.prime + 1) / 4) + 1) n ((c.prime + 1) / 4) = r :=
    powMod_eq _ _ Nat.lt_log2_self
  have field : (n : ZMod c.prime) = y * y := by
    rw [← Nat.cast_mul, ZMod.natCast_eq_natCast_iff', square]
  have cast : (r : ZMod c.prime) = (y * y) ^ ((c.prime + 1) / 4) := by
    rw [ZMod.natCast_mod, Nat.cast_pow, field]
  have squared : (r : ZMod c.prime) * r = y * y := by
    rw [cast, ← pow_two, square_pow_square]
  have isRoot : r * r % c.prime = n % c.prime := by
    rw [← square, ← ZMod.natCast_eq_natCast_iff', Nat.cast_mul, Nat.cast_mul, squared]
  have below : r < c.prime := Nat.mod_lt _ c.prime_prime.pos
  refine ⟨r, ?_, ?_⟩
  · simp only [root?, power, if_pos isRoot]
  · rcases mul_self_eq_mul_self_iff.mp squared with same | opposite
    · left
      rw [ZMod.natCast_eq_natCast_iff', Nat.mod_eq_of_lt below, Nat.mod_eq_of_lt reduced] at same
      exact same
    · have divides : c.prime ∣ r + y := by
        rw [← ZMod.natCast_eq_zero_iff, Nat.cast_add, opposite, neg_add_cancel]
      obtain ⟨k, multiple⟩ := divides
      rcases k with _ | _ | k
      · omega
      · right
        omega
      · rw [Nat.mul_add, Nat.mul_add] at multiple
        omega

end Curve

namespace EcPublicKey

variable (key : EcPublicKey)

theorem odd_prime (c : Curve) : c.prime % 2 = 1 := by cases c <;> decide +kernel

/-- Whichever root is found, the rule that picks the one of the parity of `y` gives `y`. -/
theorem lift?_self {pick : Nat → Nat → Nat} {parity : Nat} (same : key.y % 2 = parity)
    (picks : ∀ y z, pick y z = if y % 2 = parity then y else z) :
    lift? key.curve key.x pick = some key := by
  have square : key.y * key.y % key.curve.prime = key.curve.cubic key.x % key.curve.prime := by
    rw [Curve.cubic, Nat.mod_mod]
    exact key.contains.2.2
  obtain ⟨r, found, root⟩ := key.curve.root?_of_square key.contains.2.1 square
  have picked : pick r (key.curve.prime - r) = key.y := by
    have odd := odd_prime key.curve
    rw [picks]
    split <;> omega
  simp only [lift?, found, Option.bind_eq_bind, Option.bind_some, picked, ofCoordinates?_self]

theorem decodeAny?_encode : decodeAny? key.curve key.encode = some key := by
  have lead : key.encode = 4 :: (key.coordinate key.x ++ key.coordinate key.y) := rfl
  have read : decodeAny? key.curve key.encode = (decode key.curve key.encode).toOption := by
    simp only [lead, decodeAny?, if_true]
  rw [read, decode_encode]
  rfl

theorem decodeAny?_compressed : decodeAny? key.curve key.compressed = some key := by
  have size : ¬ (key.coordinate key.x).length ≠ key.curve.fieldSize := by simp
  have x := toNatBE_coordinate key key.contains.1
  rcases Nat.mod_two_eq_zero_or_one key.y with even | odd
  · have lead : UInt8.ofNat (2 + key.y % 2) = 2 := by rw [even]; rfl
    simp only [compressed, lead, decodeAny?, if_neg size, x, if_neg (by decide : (2 : UInt8) ≠ 4),
      if_true]
    exact key.lift?_self even fun _ _ => rfl
  · have lead : UInt8.ofNat (2 + key.y % 2) = 3 := by rw [odd]; rfl
    simp only [compressed, lead, decodeAny?, if_neg size, x, if_neg (by decide : (3 : UInt8) ≠ 4),
      if_neg (by decide : (3 : UInt8) ≠ 2), if_true]
    exact key.lift?_self odd fun _ _ => rfl

end EcPublicKey

end SealedContainer
