import SealedContainer.Key.Ec
import SealedContainer.Proofs.Bytes
import SealedContainer.Proofs.Outcome

/-!
The uncompressed form of a public key. It is read back as the key, nothing else is read as that
key, and its length tells the curve.
-/

namespace SealedContainer.EcPublicKey

open Bytes Outcome

theorem prime_lt (curve : Curve) : curve.prime < 256 ^ curve.fieldSize := by
  cases curve <;> decide +kernel

@[simp] theorem length_coordinate (key : EcPublicKey) (n : Nat) :
    (key.coordinate n).length = key.curve.fieldSize := by
  simp [coordinate]

@[simp] theorem length_encode (key : EcPublicKey) : key.encode.length = key.curve.pointSize := by
  simp only [encode, Curve.pointSize, List.length_cons, List.length_append, length_coordinate]
  omega

theorem pointSize_injective {c d : Curve} (same : c.pointSize = d.pointSize) : c = d := by
  cases c <;> cases d <;> simp [Curve.pointSize, Curve.fieldSize] at same ⊢

theorem toNatBE_coordinate (key : EcPublicKey) {n : Nat} (reduced : n < key.curve.prime) :
    toNatBE (key.coordinate n) = n :=
  toNatBE_ofNatBE_of_lt (Nat.lt_trans reduced (prime_lt key.curve))

theorem ofCoordinates?_self (key : EcPublicKey) :
    ofCoordinates? key.curve key.x key.y = some key := by
  rw [ofCoordinates?, dif_pos key.contains]

theorem eq_of_ofCoordinates? {curve : Curve} {x y : Nat} {key : EcPublicKey}
    (found : ofCoordinates? curve x y = some key) :
    key.curve = curve ∧ key.x = x ∧ key.y = y := by
  unfold ofCoordinates? at found
  split at found
  · cases found
    exact ⟨rfl, rfl, rfl⟩
  · cases found

@[simp] theorem decode_encode (key : EcPublicKey) : decode key.curve key.encode = .ok key := by
  have first : (key.coordinate key.x ++ key.coordinate key.y).take key.curve.fieldSize =
      key.coordinate key.x := List.take_left' (by simp)
  have second : (key.coordinate key.x ++ key.coordinate key.y).drop key.curve.fieldSize =
      key.coordinate key.y := List.drop_left' (by simp)
  have size : (key.encode.length ≠ key.curve.pointSize) = False := by simp
  simp only [decode, size, if_false]
  simp only [encode, List.headD_cons, List.drop_succ_cons, List.drop_zero, first, second,
    toNatBE_coordinate key key.contains.1, toNatBE_coordinate key key.contains.2.1,
    ofCoordinates?_self]
  rfl

theorem coordinate_toNatBE (key : EcPublicKey) {bytes : Bytes}
    (size : bytes.length = key.curve.fieldSize) : key.coordinate (toNatBE bytes) = bytes := by
  rw [coordinate, ← size, ofNatBE_toNatBE]

theorem eq_encode_of_decode {curve : Curve} {bytes : Bytes} {key : EcPublicKey}
    (read : decode curve bytes = .ok key) : key.curve = curve ∧ bytes = key.encode := by
  unfold decode at read
  split at read
  · simp at read
  rename_i size
  rw [Classical.not_not] at size
  dsimp only at read
  split at read
  · simp at read
  rename_i lead
  rw [Classical.not_not] at lead
  split at read
  · rename_i found
    simp only [pure_eq_ok, Except.ok.injEq] at read
    rw [read] at found
    rcases eq_of_ofCoordinates? found with ⟨rfl, x, y⟩
    refine ⟨rfl, ?_⟩
    cases bytes with
    | nil => simp [Curve.pointSize] at size
    | cons b rest =>
        have long : rest.length = 2 * key.curve.fieldSize := by
          simpa [Curve.pointSize] using size
        simp only [List.headD_cons] at lead
        simp only [List.drop_succ_cons, List.drop_zero] at x y
        rw [encode, lead, x, y, coordinate_toNatBE key (List.length_take_of_le (by omega)),
          coordinate_toNatBE key (by rw [List.length_drop]; omega), List.take_append_drop]
  · simp at read

theorem encode_injective {a b : EcPublicKey} (same : a.encode = b.encode) : a = b := by
  have curves : a.curve = b.curve := by
    have sizes := congrArg List.length same
    rw [length_encode, length_encode] at sizes
    exact pointSize_injective sizes
  have read := decode_encode a
  rw [same, curves, decode_encode] at read
  exact (Except.ok.inj read).symm

theorem eq_of_decode_encode {curve : Curve} {key other : EcPublicKey}
    (read : decode curve key.encode = .ok other) : other = key ∧ key.curve = curve := by
  rcases eq_encode_of_decode read with ⟨on, same⟩
  have equal := encode_injective same
  subst equal
  exact ⟨rfl, on⟩

end SealedContainer.EcPublicKey
