import SealedContainer.Proofs.Asn1.Form
import SealedContainer.Proofs.Key.Rsa

/-!
RSA keys and their encodings stand for pairs of positive integers, one to one. Main statement:
`coded_canonically`. Whatever bytes a key is made of, the integers alone count, and of each pair of
integers the distinguished form is the one encoding that is read.
-/

namespace SealedContainer

open Bytes

/-- A number takes all bits of its bytes but the zeros at the front of the first. -/
theorem Bytes.log2_toNatBE {b : UInt8} (nonzero : b ≠ 0) (rest : Bytes) :
    Nat.log2 (toNatBE (b :: rest)) + 1 = 8 * (rest.length + 1) - b.toBitVec.clz.toNat := by
  have bits : b.toBitVec ≠ 0#8 := fun zero => nonzero (UInt8.toBitVec_inj.mp zero)
  have low : 2 ^ (7 - b.toBitVec.clz.toNat) ≤ b.toNat :=
    BitVec.two_pow_sub_clz_le_toNat_of_ne_zero (by decide) bits
  have high : b.toNat < 2 ^ (8 - b.toBitVec.clz.toNat) := BitVec.toNat_lt_two_pow_sub_clz
  generalize b.toBitVec.clz.toNat = zeros at low high ⊢
  have few : zeros ≤ 7 := by
    apply Nat.le_of_not_lt
    intro many
    rw [Nat.sub_eq_zero_of_le many] at high
    rw [Nat.sub_eq_zero_of_le (Nat.le_of_lt many)] at low
    omega
  have power : 256 ^ rest.length = 2 ^ (8 * rest.length) := by rw [Nat.pow_mul]
  have below : toNatBE rest < 256 ^ rest.length := toNatBE_lt rest
  have value := toNatBE_cons b rest
  rw [power] at below value
  have log : Nat.log2 (toNatBE (b :: rest)) = 7 - zeros + 8 * rest.length := by
    apply (Nat.log2_eq_iff (Nat.ne_of_gt (toNatBE_pos_of_head (by simpa using nonzero)))).mpr
    constructor
    · calc 2 ^ (7 - zeros + 8 * rest.length)
        _ = 2 ^ (7 - zeros) * 2 ^ (8 * rest.length) := Nat.pow_add _ _ _
        _ ≤ b.toNat * 2 ^ (8 * rest.length) := Nat.mul_le_mul_right _ low
        _ ≤ toNatBE (b :: rest) := value ▸ Nat.le_add_right _ _
    · calc toNatBE (b :: rest)
        _ < (b.toNat + 1) * 2 ^ (8 * rest.length) := by
          rw [value, Nat.add_mul b.toNat 1, Nat.one_mul]
          exact Nat.add_lt_add_left below _
        _ ≤ 2 ^ (8 - zeros) * 2 ^ (8 * rest.length) := Nat.mul_le_mul_right _ high
        _ = 2 ^ (7 - zeros + 8 * rest.length + 1) := by
          rw [← Nat.pow_add]
          congr 1
          omega
  omega

namespace RsaPublicKey

open Der Outcome

variable {modulus exponent bytes : Bytes} {key other : RsaPublicKey}

theorem exists_new_eq_ok_iff :
    (∃ key, new modulus exponent = .ok key) ↔ 0 < toNatBE modulus ∧ 0 < toNatBE exponent := by
  rw [← trimZeros_head_iff, ← trimZeros_head_iff]
  unfold new
  by_cases first : (trimZeros modulus).head?.any (· ≠ 0) = true
  · by_cases second : (trimZeros exponent).head?.any (· ≠ 0) = true
    · simp only [dif_pos first, dif_pos second]
      exact iff_of_true ⟨_, rfl⟩ ⟨first, second⟩
    · simp only [dif_pos first, dif_neg second]
      exact iff_of_false (by simp) fun both => second both.2
  · simp only [dif_neg first]
    exact iff_of_false (by simp) fun both => first both.1

theorem kind_of_new_eq_error {e : CryptoError} (refused : new modulus exponent = .error e) :
    e.kind = .invalidKey := by
  simp only [new] at refused
  split at refused
  · split at refused
    · cases refused
    · cases refused
      rfl
  · cases refused
    rfl

theorem integers_of_new (made : new modulus exponent = .ok key) :
    toNatBE key.modulus = toNatBE modulus ∧ toNatBE key.exponent = toNatBE exponent := by
  simp only [new] at made
  split at made
  · split at made
    · cases made
      exact ⟨toNatBE_trimZeros _, toNatBE_trimZeros _⟩
    · cases made
  · cases made

theorem eq_iff_integers :
    key = other ↔
      toNatBE key.modulus = toNatBE other.modulus ∧ toNatBE key.exponent = toNatBE other.exponent := by
  constructor
  · rintro rfl
    exact ⟨rfl, rfl⟩
  · rintro ⟨modulus, exponent⟩
    have first := eq_of_toNatBE key.modulus_pos other.modulus_pos modulus
    have second := eq_of_toNatBE key.exponent_pos other.exponent_pos exponent
    cases key
    cases other
    cases first
    cases second
    rfl

theorem bits_eq (key : RsaPublicKey) :
    key.bits = 8 * key.modulus.length - (key.modulus.headD 0).toBitVec.clz.toNat := by
  obtain ⟨modulus, _, head, _⟩ := key
  cases modulus with
  | nil => simp at head
  | cons b rest => exact log2_toNatBE (by simpa using head) rest

theorem bits_iff (key : RsaPublicKey) (n : Nat) :
    key.bits = n ↔ 2 ^ (n - 1) ≤ toNatBE key.modulus ∧ toNatBE key.modulus < 2 ^ n := by
  have positive := toNatBE_pos_of_head key.modulus_pos
  unfold bits
  cases n with
  | zero => omega
  | succ n => rw [Nat.add_right_cancel_iff, Nat.log2_eq_iff (by omega), Nat.add_sub_cancel]

/-- Bytes in the form that an RSA key with these integers is to have, be they positive or zero. -/
def IsForm (modulus exponent : Nat) (bytes : Bytes) : Prop :=
  bytes.length ≤ maxLength ∧ ∃ first second one two,
    IsNatural modulus one ∧ IsElement Tag.integer one first ∧
    IsNatural exponent two ∧ IsElement Tag.integer two second ∧
    IsElement Tag.sequence (first ++ second) bytes

theorem isForm_iff {m e : Nat} :
    IsForm m e bytes ↔ ∃ modulus exponent, integers? bytes = some (modulus, exponent) ∧
      toNatBE modulus = m ∧ toNatBE exponent = e := by
  constructor
  · rintro ⟨small, first, second, one, two, number, element, number', element', sequence⟩
    have inside : (first ++ second).length ≤ maxLength := Nat.le_trans sequence.length_le small
    rw [List.length_append] at inside
    have front := element.length_le
    have back := element'.length_le
    obtain ⟨modulus, shape, rfl, rfl⟩ := isNatural_iff.mp number
    obtain ⟨exponent, shape', rfl, rfl⟩ := isNatural_iff.mp number'
    rw [isElement_iff (by omega)] at element element'
    rw [isElement_iff (by rw [List.length_append]; omega), element, element'] at sequence
    exact ⟨modulus, exponent, integers?_eq_some_iff.mpr ⟨shape, shape', small, sequence⟩, rfl, rfl⟩
  · rintro ⟨modulus, exponent, found, rfl, rfl⟩
    obtain ⟨shape, shape', small, rfl⟩ := integers?_eq_some_iff.mp found
    have inside := Nat.le_trans (length_encode_ge _ _) small
    have front := length_natural_ge modulus
    have back := length_natural_ge exponent
    refine ⟨small, natural modulus, natural exponent, naturalContent modulus,
      naturalContent exponent, isNatural_iff.mpr ⟨modulus, shape, rfl, rfl⟩, ?_,
      isNatural_iff.mpr ⟨exponent, shape', rfl, rfl⟩, ?_, (isElement_iff inside).mpr rfl⟩
    · rw [List.length_append] at inside
      exact (isElement_iff (by omega)).mpr rfl
    · rw [List.length_append] at inside
      exact (isElement_iff (by omega)).mpr rfl

theorem decode_eq_ok_iff_isForm :
    decode bytes = .ok key ↔ IsForm (toNatBE key.modulus) (toNatBE key.exponent) bytes := by
  rw [isForm_iff]
  unfold decode
  constructor
  · intro read
    split at read
    next modulus exponent found =>
      obtain ⟨first, second⟩ := integers_of_new read
      exact ⟨modulus, exponent, found, first.symm, second.symm⟩
    next => cases read
  · rintro ⟨modulus, exponent, found, first, second⟩
    rw [found]
    have positive := And.intro (toNatBE_pos_of_head key.modulus_pos)
      (toNatBE_pos_of_head key.exponent_pos)
    rw [← first, ← second] at positive
    obtain ⟨same, made⟩ := exists_new_eq_ok_iff.mpr positive
    have integers := integers_of_new made
    rw [first, second] at integers
    rwa [eq_iff_integers.mpr integers] at made

theorem decode_zero_iff :
    (∃ e, decode bytes = .error e ∧ e.kind = .invalidKey) ↔
      ∃ m e, IsForm m e bytes ∧ (m = 0 ∨ e = 0) := by
  simp only [isForm_iff]
  unfold decode
  constructor
  · rintro ⟨e, refused, kind⟩
    split at refused
    next modulus exponent found =>
      refine ⟨_, _, ⟨modulus, exponent, found, rfl, rfl⟩, ?_⟩
      have unmade : ¬ ∃ key, new modulus exponent = .ok key := by
        rintro ⟨key, made⟩
        rw [refused] at made
        cases made
      rw [exists_new_eq_ok_iff] at unmade
      omega
    next =>
      cases refused
      cases kind
  · rintro ⟨_, _, ⟨modulus, exponent, found, rfl, rfl⟩, zero⟩
    rw [found]
    cases made : new modulus exponent with
    | ok key =>
        have positive := exists_new_eq_ok_iff.mp ⟨key, made⟩
        omega
    | error e => exact ⟨e, made, kind_of_new_eq_error made⟩

theorem kind_of_decode_eq_error {e : CryptoError} (refused : decode bytes = .error e) :
    e.kind = .invalidKey ∨ e.kind = .encoding := by
  unfold decode at refused
  split at refused
  · exact .inl (kind_of_new_eq_error refused)
  · cases refused
    exact .inr rfl

/--
A key is made of any two byte strings that stand for positive integers. It is the same key for the
same integers, whatever zeros stand in front, and its bits are those of the modulus. It has one
encoding, unless this would be too long: the distinguished form of its two integers, with nothing
behind it. This is read as the key, and nothing else is. The same form with a zero in place of one of
the integers is no valid key, and all other bytes are wrongly encoded.
-/
theorem coded_canonically (modulus exponent bytes : Bytes) :
    ((∃ key, new modulus exponent = .ok key) ↔ 0 < toNatBE modulus ∧ 0 < toNatBE exponent) ∧
      (∀ key, new modulus exponent = .ok key → ∀ modulus' exponent' other,
        new modulus' exponent' = .ok other →
        (key = other ↔ toNatBE modulus = toNatBE modulus' ∧ toNatBE exponent = toNatBE exponent')) ∧
      (∀ key : RsaPublicKey,
        key.bits = 8 * key.modulus.length - (key.modulus.headD 0).toBitVec.clz.toNat ∧
        ∀ n, key.bits = n ↔ 2 ^ (n - 1) ≤ toNatBE key.modulus ∧ toNatBE key.modulus < 2 ^ n) ∧
      (∀ key, decode bytes = .ok key ↔ key.encode? = some bytes) ∧
      (∀ key, decode bytes = .ok key ↔
        IsForm (toNatBE key.modulus) (toNatBE key.exponent) bytes) ∧
      ((∃ e, decode bytes = .error e ∧ e.kind = .invalidKey) ↔
        ∃ m e, IsForm m e bytes ∧ (m = 0 ∨ e = 0)) ∧
      ∀ e, decode bytes = .error e → e.kind = .invalidKey ∨ e.kind = .encoding := by
  refine ⟨exists_new_eq_ok_iff, ?_, fun key => ⟨key.bits_eq, key.bits_iff⟩,
    fun key => decode_eq_ok_iff, fun key => decode_eq_ok_iff_isForm, decode_zero_iff,
    fun e => kind_of_decode_eq_error⟩
  intro key made modulus' exponent' other made'
  obtain ⟨first, second⟩ := integers_of_new made
  obtain ⟨first', second'⟩ := integers_of_new made'
  rw [eq_iff_integers, first, second, first', second']

end RsaPublicKey

end SealedContainer
