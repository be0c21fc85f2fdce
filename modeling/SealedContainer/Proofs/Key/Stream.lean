import SealedContainer.Key.Secret
import SealedContainer.Proofs.Hash.Parts
import SealedContainer.Proofs.Outcome

/-!
Keys of any length from a shared secret. Main statement: `derived_as_stream`. A secret and the
bytes that it is bound to give one stream of 255 blocks, and every key is a front of it.
-/

namespace SealedContainer

open Outcome

/-- A front of the stream that reaches into its last block needs no block behind that. -/
theorem Hkdf.take_expand (key info : Bytes) {short long : Nat} (shorter : short ≤ long) :
    (expand key info long).take short = expand key info short := by
  have fewer : (short + 31) / 32 ≤ (long + 31) / 32 := by omega
  have covered : short ≤ 32 * ((short + 31) / 32) := by omega
  rw [expand, expand, ← take_blocks key info _ _ 1 [] fewer, List.take_take, List.take_take,
    Nat.min_eq_left shorter, Nat.min_eq_left covered]

def sharedStream (shared info : Bytes) : Bytes := Hkdf.expand (premaster shared) info Hkdf.maxLength

theorem length_sharedStream (shared info : Bytes) : (sharedStream shared info).length = 255 * 32 :=
  Hkdf.length_expand ..

theorem deriveShared_eq (shared : Bytes) (info : List Bytes) (length : Nat) :
    deriveShared shared info length =
      if length ≤ 255 * 32 then .ok ((sharedStream shared info.flatten).take length)
      else .error .outputTooLong := by
  rw [deriveShared, Hkdf.expand?_eq]
  by_cases short : length ≤ 255 * 32
  · have front : (sharedStream shared info.flatten).take length =
        Hkdf.expand (premaster shared) info.flatten length := Hkdf.take_expand _ _ short
    rw [if_pos short, if_pos (show length ≤ Hkdf.maxLength from short), front]
    rfl
  · rw [if_neg short, if_neg (show ¬ length ≤ Hkdf.maxLength from short)]
    rfl

variable {shared bytes : Bytes} {info : List Bytes} {length : Nat} {e : CryptoError}

theorem deriveShared_eq_ok : deriveShared shared info length = .ok bytes ↔
    length ≤ 255 * 32 ∧ bytes = (sharedStream shared info.flatten).take length := by
  rw [deriveShared_eq]
  split
  next short => simp [short, eq_comm]
  next long => simp [long]

theorem deriveShared_eq_error : deriveShared shared info length = .error e ↔
    255 * 32 < length ∧ e = .outputTooLong := by
  rw [deriveShared_eq]
  split
  next short => simp [Nat.not_lt.mpr short]
  next long => simp [Nat.not_le.mp long, eq_comm]

/--
A key is derived up to 255 blocks of 32 bytes and no further. A shorter one is the front of a longer
one, and how the bytes that it is bound to are cut into parts makes no difference.
-/
theorem derived_as_stream (shared : Bytes) (info : List Bytes) :
    (∀ length, (∃ bytes, deriveShared shared info length = .ok bytes ∧ bytes.length = length) ↔
      length ≤ 255 * 32) ∧
    (∀ length, (∃ e : CryptoError, deriveShared shared info length = .error e ∧
      e.kind = .keyDerivation) ↔ 255 * 32 < length) ∧
    (∀ m n short long, m ≤ n → deriveShared shared info m = .ok short →
      deriveShared shared info n = .ok long → short <+: long) ∧
    ∀ other : List Bytes, other.flatten = info.flatten →
      deriveShared shared other = deriveShared shared info := by
  refine ⟨?derived, ?refused, ?front, ?parts⟩
  case derived =>
    intro length
    constructor
    · rintro ⟨bytes, derived, _⟩
      exact (deriveShared_eq_ok.mp derived).1
    · intro short
      refine ⟨_, deriveShared_eq_ok.mpr ⟨short, rfl⟩, List.length_take_of_le ?_⟩
      rwa [length_sharedStream]
  case refused =>
    intro length
    constructor
    · rintro ⟨e, refused, _⟩
      exact (deriveShared_eq_error.mp refused).1
    · intro long
      exact ⟨.outputTooLong, deriveShared_eq_error.mpr ⟨long, rfl⟩, rfl⟩
  case front =>
    intro m n short long shorter first second
    rw [(deriveShared_eq_ok.mp first).2, (deriveShared_eq_ok.mp second).2]
    exact List.take_prefix_take_left shorter
  case parts =>
    intro other same
    funext length
    rw [deriveShared_eq, deriveShared_eq, same]

/-- A key of half a block is the front of one of two blocks, whose text comes in three parts. -/
theorem half_block_derived :
    let secret := Bytes.ofString "shared"
    let parts := [Bytes.ofString "in", [], Bytes.ofString "fo"]
    16 ≤ 64 ∧ parts.flatten = [Bytes.ofString "info"].flatten ∧
      ∃ short long, deriveShared secret [Bytes.ofString "info"] 16 = .ok short ∧
        deriveShared secret [Bytes.ofString "info"] 64 = .ok long ∧ short <+: long ∧
        deriveShared secret parts 64 = .ok long := by
  intro secret parts
  have shorter : 16 ≤ 64 := by decide
  have same : parts.flatten = [Bytes.ofString "info"].flatten := by decide
  obtain ⟨derived, _, front, parted⟩ := derived_as_stream secret [Bytes.ofString "info"]
  obtain ⟨short, first, _⟩ := (derived 16).mpr (by decide)
  obtain ⟨long, second, _⟩ := (derived 64).mpr (by decide)
  refine ⟨shorter, same, short, long, first, second, front _ _ _ _ shorter first second, ?_⟩
  rw [parted parts same]
  exact second

end SealedContainer
