import SealedContainer.Key.Rsa
import SealedContainer.Proofs.Asn1.Der
import SealedContainer.Proofs.Outcome

/-!
The encoding of an RSA key is read back as the key, and nothing else is read as a key.
-/

namespace SealedContainer.RsaPublicKey

open Bytes Der Outcome

variable {bytes modulus exponent : Bytes} {key : RsaPublicKey}

theorem integers?_eq_some_iff :
    integers? bytes = some (modulus, exponent) ↔
      IsMagnitude modulus ∧ IsMagnitude exponent ∧ bytes.length ≤ maxLength ∧
        bytes = Der.encode Tag.sequence (natural modulus ++ natural exponent) := by
  simp only [integers?, Option.bind_eq_bind, Option.bind_eq_some_iff, Prod.exists,
    Option.ite_none_right_eq_some, Option.pure_def, Option.some.injEq, Prod.mk.injEq]
  constructor
  · intro read
    obtain ⟨content, only, m, more, first, e, rest, second, rfl, rfl, rfl⟩ := read
    obtain ⟨_, small, whole⟩ := only?_eq_some_iff.mp only
    obtain ⟨modulusShape, _, front⟩ := natural?_eq_some_iff.mp first
    obtain ⟨exponentShape, _, back⟩ := natural?_eq_some_iff.mp second
    rw [back, List.append_nil] at front
    exact ⟨modulusShape, exponentShape, small, by rw [whole, front]⟩
  · intro written
    obtain ⟨modulusShape, exponentShape, small, whole⟩ := written
    have inside : (natural modulus ++ natural exponent).length ≤ maxLength := by
      rw [whole] at small
      exact Nat.le_trans (length_encode_ge _ _) small
    rw [List.length_append] at inside
    have modulusSmall := length_natural_ge modulus
    have exponentSmall := length_natural_ge exponent
    have only := only?_eq_some_iff.mpr ⟨by decide, small, whole⟩
    have first := natural?_eq_some_iff.mpr
      ⟨modulusShape, by omega, (rfl : natural modulus ++ natural exponent = _)⟩
    have second := natural?_eq_some_iff.mpr
      ⟨exponentShape, by omega, (List.append_nil (natural exponent)).symm⟩
    exact ⟨_, only, _, _, first, _, _, second, rfl, rfl, rfl⟩

theorem isMagnitude_modulus (key : RsaPublicKey) : IsMagnitude key.modulus := .inr key.modulus_pos

theorem isMagnitude_exponent (key : RsaPublicKey) : IsMagnitude key.exponent := .inr key.exponent_pos

theorem trimZeros_of_isMagnitude {magnitude : Bytes} (shape : IsMagnitude magnitude) :
    magnitude = [0] ∧ trimZeros magnitude = [] ∨ trimZeros magnitude = magnitude := by
  rcases shape with rfl | head
  · exact .inl ⟨rfl, rfl⟩
  · exact .inr (trimZeros_of_head head)

theorem eq_of_new_eq_ok (modulusShape : IsMagnitude modulus) (exponentShape : IsMagnitude exponent)
    (made : new modulus exponent = .ok key) : key.modulus = modulus ∧ key.exponent = exponent := by
  simp only [new] at made
  split at made
  next modulusPos =>
    split at made
    next exponentPos =>
      cases made
      constructor
      · rcases trimZeros_of_isMagnitude modulusShape with ⟨_, zero⟩ | same
        · simp [zero] at modulusPos
        · exact same
      · rcases trimZeros_of_isMagnitude exponentShape with ⟨_, zero⟩ | same
        · simp [zero] at exponentPos
        · exact same
    next => cases made
  next => cases made

theorem new_self (key : RsaPublicKey) : new key.modulus key.exponent = .ok key := by
  simp only [new, trimZeros_of_head key.modulus_pos, trimZeros_of_head key.exponent_pos,
    dif_pos key.modulus_pos, dif_pos key.exponent_pos]
  rfl

theorem encode?_eq_some_iff :
    key.encode? = some bytes ↔ key.encode.length ≤ maxLength ∧ bytes = key.encode := by
  simp [encode?, eq_comm]

/-- What is read as a key is what is written for it. -/
theorem decode_eq_ok_iff : decode bytes = .ok key ↔ key.encode? = some bytes := by
  rw [encode?_eq_some_iff]
  constructor
  · intro read
    unfold decode at read
    split at read
    next modulus exponent found =>
      obtain ⟨modulusShape, exponentShape, small, whole⟩ := integers?_eq_some_iff.mp found
      obtain ⟨rfl, rfl⟩ := eq_of_new_eq_ok modulusShape exponentShape read
      have written : bytes = key.encode := whole
      exact ⟨by rw [← written]; exact small, written⟩
    next => cases read
  · intro written
    obtain ⟨small, rfl⟩ := written
    have found : integers? key.encode = some (key.modulus, key.exponent) :=
      integers?_eq_some_iff.mpr
        ⟨key.isMagnitude_modulus, key.isMagnitude_exponent, small, rfl⟩
    simp only [decode, found]
    exact new_self key

theorem eq_of_encode? {other : RsaPublicKey} (first : key.encode? = some bytes)
    (second : other.encode? = some bytes) : key = other := by
  have read := decode_eq_ok_iff.mpr first
  rw [decode_eq_ok_iff.mpr second] at read
  exact (Except.ok.inj read).symm

end SealedContainer.RsaPublicKey
