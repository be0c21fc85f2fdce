import SealedContainer.Proofs.Asn1.Der

/-!
The distinguished form of lengths, integers and elements, said by what it demands: a length takes as
few bytes as it can, and an integer as few as leave room for its sign. One byte string meets each
demand, the one that is written: `isLength_iff`, `isElement_iff`, `isNatural_iff`.
-/

namespace SealedContainer.Der

open Bytes

variable {n : Nat} {tag : UInt8} {content bytes : Bytes}

/-- Lengths below 128 are one byte. Others are announced by the number of their bytes, of which the
first is not zero. -/
inductive IsLength : Nat → Bytes → Prop
  | short (b : UInt8) (low : b.toNat < 128) : IsLength b.toNat [b]
  | long (lead : UInt8) (digits : Bytes) (announced : lead.toNat = 128 + digits.length)
      (shortest : digits.head?.any (· ≠ 0) = true) (large : 128 ≤ toNatBE digits) :
      IsLength (toNatBE digits) (lead :: digits)

def IsElement (tag : UInt8) (content bytes : Bytes) : Prop :=
  ∃ length, IsLength content.length length ∧ bytes = tag :: (length ++ content)

/-- A number that is not negative: the first bit is its sign, and a zero byte in front is there for
this bit only. -/
structure IsNatural (n : Nat) (content : Bytes) : Prop where
  value : toNatBE content = n
  positive : content.head?.any (· < 0x80) = true
  shortest : ∀ b rest, content = 0 :: b :: rest → 0x80 ≤ b

theorem ofNatMinimal_head (positive : 0 < n) : (ofNatMinimal n).head?.any (· ≠ 0) = true := by
  apply (trimZeros_head_iff _).mpr
  rwa [← toNatBE_trimZeros, ← ofNatMinimal, toNatBE_ofNatMinimal]

theorem isLength_iff (small : n ≤ maxLength) : IsLength n bytes ↔ bytes = lengthBytes n := by
  constructor
  · intro form
    cases form with
    | short b low => simp [lengthBytes, low]
    | long lead digits announced shortest large =>
        have minimal : ofNatMinimal (toNatBE digits) = digits :=
          eq_of_toNatBE (ofNatMinimal_head (by omega)) shortest (toNatBE_ofNatMinimal _)
        have byte : UInt8.ofNat (128 + digits.length) = lead := by
          rw [← announced, UInt8.ofNat_toNat]
        simp only [lengthBytes, if_neg (Nat.not_lt.mpr large), minimal, byte]
  · rintro rfl
    unfold lengthBytes
    split
    next low =>
      have byte : (UInt8.ofNat n).toNat = n := by rw [UInt8.toNat_ofNat']; omega
      have form := IsLength.short (UInt8.ofNat n) (by rwa [byte])
      rwa [byte] at form
    next large =>
      have few := length_ofNatMinimal_le_four small
      have byte : (UInt8.ofNat (128 + (ofNatMinimal n).length)).toNat =
          128 + (ofNatMinimal n).length := by
        rw [UInt8.toNat_ofNat']
        omega
      have form := IsLength.long _ _ byte (ofNatMinimal_head (by omega))
        (by rw [toNatBE_ofNatMinimal]; omega)
      rwa [toNatBE_ofNatMinimal] at form

theorem isElement_iff (small : content.length ≤ maxLength) :
    IsElement tag content bytes ↔ bytes = encode tag content := by
  constructor
  · rintro ⟨length, form, rfl⟩
    rw [(isLength_iff small).mp form]
    rfl
  · rintro rfl
    exact ⟨_, (isLength_iff small).mpr rfl, rfl⟩

theorem IsElement.length_le (form : IsElement tag content bytes) :
    content.length ≤ bytes.length := by
  obtain ⟨length, _, rfl⟩ := form
  rw [List.length_cons, List.length_append]
  omega

theorem isNatural_iff :
    IsNatural n content ↔ ∃ magnitude, IsMagnitude magnitude ∧ toNatBE magnitude = n ∧
      content = naturalContent magnitude := by
  constructor
  · rintro ⟨value, positive, shortest⟩
    have read : ∃ magnitude, magnitude? content = some magnitude ∧ toNatBE magnitude = n := by
      rcases content with _ | ⟨b, _ | ⟨c, more⟩⟩
      case nil => simp at positive
      case cons.nil =>
        have low : b < 0x80 := by simpa using positive
        exact ⟨[b], by simp [magnitude?, low], value⟩
      case cons.cons =>
        have low : b < 0x80 := by simpa using positive
        by_cases zero : b = 0
        · subst zero
          have high := shortest c more rfl
          exact ⟨c :: more, by simp [magnitude?, high], by simpa [toNatBE] using value⟩
        · exact ⟨b :: c :: more, by simp [magnitude?, zero, low], value⟩
    obtain ⟨magnitude, read, same⟩ := read
    obtain ⟨shape, written⟩ := magnitude?_eq_some_iff.mp read
    exact ⟨magnitude, shape, same, written⟩
  · rintro ⟨magnitude, shape, rfl, rfl⟩
    rcases magnitude with _ | ⟨b, rest⟩
    case nil => simp [IsMagnitude] at shape
    case cons =>
      by_cases high : 0x80 ≤ b
      · have padded : naturalContent (b :: rest) = 0 :: b :: rest := if_pos high
        rw [padded]
        refine ⟨by simp [toNatBE], by simp, ?_⟩
        rintro _ _ ⟨⟩
        exact high
      · have whole : naturalContent (b :: rest) = b :: rest := if_neg high
        rw [whole]
        refine ⟨rfl, by simpa using high, ?_⟩
        rintro c more ⟨⟩
        -- A zero in front of more bytes is no magnitude.
        simp [IsMagnitude] at shape

end SealedContainer.Der
