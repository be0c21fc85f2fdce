import SealedContainer.Proofs.Curve.Order
import SealedContainer.Proofs.Key.Codec

/-!
Key pairs by their scalars. Every scalar between zero and the order of a curve has one key pair on
it, and any two key pairs on a curve agree on one secret: `exists_ofScalar?` and `agree_comm`. Both
hold because the points of a curve are a group, in which the generator has the order of the curve.
-/

namespace SealedContainer

namespace EcPublicKey

variable {c : Curve} {n : Nat} {key : EcPublicKey}

theorem point_of_ofScalar? (found : ofScalar? c n = some key) :
    key.curve = c ∧ key.point = Point.mul c n (Point.generator c) := by
  unfold ofScalar? at found
  split at found
  next x y same =>
    obtain ⟨on, rfl, rfl⟩ := eq_of_ofCoordinates? found
    exact ⟨on, same.symm⟩
  next => cases found

theorem ofScalar?_of_not_dvd (proper : ¬ c.order ∣ n) : ∃ key, ofScalar? c n = some key := by
  rcases Point.mul_generator (c := c) n with ⟨divides, _⟩ | ⟨_, x, y, same, on⟩
  · exact absurd divides proper
  · exact ⟨⟨c, x, y, on⟩, by simp only [ofScalar?, same, ofCoordinates?, dif_pos on]⟩

theorem eq_of_ofScalar? {m : Nat} (first : m < c.order) (second : n < c.order)
    (found : ofScalar? c m = some key) (found' : ofScalar? c n = some key) : m = n := by
  apply Point.eq_of_mul_generator first second
  rw [← (point_of_ofScalar? found).2, ← (point_of_ofScalar? found').2]

/-- The public keys of the scalars from one on. -/
def multiples (c : Curve) (count : Nat) : List EcPublicKey :=
  (List.range' 1 count).filterMap (ofScalar? c)

theorem mem_multiples {count : Nat} :
    key ∈ multiples c count ↔ ∃ n, 1 ≤ n ∧ n < 1 + count ∧ ofScalar? c n = some key := by
  simp [multiples, List.mem_filterMap, and_assoc]

theorem getElem?_multiples {count : Nat} (positive : 0 < count) (found : ofScalar? c 1 = some key) :
    (multiples c count)[0]? = some key := by
  obtain ⟨count, rfl⟩ := Nat.exists_eq_succ_of_ne_zero (Nat.ne_of_gt positive)
  rw [multiples, List.range'_succ, List.filterMap_cons_some found, List.getElem?_cons_zero]

theorem multiples_spec {count : Nat} (within : count < c.order) :
    (multiples c count).length = count ∧ (multiples c count).Nodup := by
  induction count with
  | zero => exact ⟨rfl, List.nodup_nil⟩
  | succ count ih =>
      obtain ⟨size, distinct⟩ := ih (Nat.lt_of_succ_lt within)
      obtain ⟨key, made⟩ :=
        ofScalar?_of_not_dvd (Nat.not_dvd_of_pos_of_lt (Nat.add_pos_left Nat.one_pos count)
          (Nat.add_comm 1 count ▸ within))
      have grown : multiples c (count + 1) = multiples c count ++ [key] := by
        simp [multiples, List.range'_concat, List.filterMap_append, made]
      have another : key ∉ multiples c count := by
        intro member
        obtain ⟨n, _, before, found⟩ := mem_multiples.mp member
        have same := eq_of_ofScalar? (by omega) (by omega) found made
        omega
      rw [grown, List.length_append, size, ← List.concat_eq_append]
      exact ⟨rfl, distinct.concat another⟩

end EcPublicKey

namespace EcKeyPair

variable {c : Curve} {n : Nat} {pair : EcKeyPair}

theorem point_eq (pair : EcKeyPair) :
    pair.publicKey.point = Point.mul pair.curve pair.scalar (Point.generator pair.curve) :=
  (EcPublicKey.point_of_ofScalar? pair.isMultiple).2

theorem eq_of_scalar {pair other : EcKeyPair} (curves : pair.curve = other.curve)
    (scalars : pair.scalar = other.scalar) : pair = other := by
  have first := pair.isMultiple
  have second := other.isMultiple
  simp only [curve] at curves
  rw [curves, scalars, second] at first
  have keys := Option.some.inj first
  cases pair
  cases other
  cases keys
  cases scalars
  rfl

theorem of_ofScalar? (found : ofScalar? c n = some pair) : pair.curve = c ∧ pair.scalar = n := by
  unfold ofScalar? at found
  split at found
  · split at found
    next key made =>
      cases found
      exact ⟨curve_of_ofScalar? made, rfl⟩
    next => cases found
  · cases found

theorem exists_ofScalar? (inRange : 0 < n ∧ n < c.order) : ∃ pair, ofScalar? c n = some pair := by
  obtain ⟨key, made⟩ := EcPublicKey.ofScalar?_of_not_dvd (Nat.not_dvd_of_pos_of_lt inRange.1 inRange.2)
  unfold ofScalar?
  rw [dif_pos inRange]
  split
  next => exact ⟨_, rfl⟩
  next missing =>
    rw [made] at missing
    cases missing

theorem ofScalar?_eq_some_iff : ofScalar? c n = some pair ↔ pair.curve = c ∧ pair.scalar = n := by
  constructor
  · exact of_ofScalar?
  · rintro ⟨rfl, rfl⟩
    obtain ⟨other, found⟩ := exists_ofScalar? pair.inRange
    obtain ⟨curves, scalars⟩ := of_ofScalar? found
    have found' : ofScalar? pair.curve pair.scalar = some other := found
    rw [found', eq_of_scalar curves scalars]

/-- Both sides of a key agreement find the same secret. -/
theorem agree_comm {a b : EcKeyPair} (curves : a.curve = b.curve) :
    a.agree b.publicKey = b.agree a.publicKey := by
  have generator : ∃ x y, Point.generator b.curve = .affine x y ∧ b.curve.Contains x y := by
    cases b.curve <;> exact ⟨_, _, rfl, by decide +kernel⟩
  obtain ⟨x, y, same, on⟩ := generator
  have shared : Point.mul a.curve a.scalar b.publicKey.point =
      Point.mul b.curve b.scalar a.publicKey.point := by
    rw [point_eq, point_eq, curves, same, Point.mul_mul_comm on]
  have first : b.publicKey.curve = a.curve := curves.symm
  have second : a.publicKey.curve = b.curve := curves
  unfold agree
  rw [if_neg (not_not.mpr first), if_neg (not_not.mpr second), shared, curves]

end EcKeyPair

end SealedContainer
