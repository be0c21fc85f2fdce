import SealedContainer.Asn1.Der
import SealedContainer.Proofs.Bytes

/-!
The readers of distinguished encodings take what the writers make, and nothing else: of every value
there is one form. Each main statement says of one reader what it gives in terms of its writer.
-/

namespace SealedContainer

namespace Bytes

@[simp] theorem toNatBE_trimZeros (bytes : Bytes) : toNatBE (trimZeros bytes) = toNatBE bytes := by
  induction bytes with
  | nil => rfl
  | cons b rest ih =>
      by_cases zero : b = 0
      · subst zero
        exact ih
      · simp [trimZeros, zero]

theorem length_trimZeros_le (bytes : Bytes) : (trimZeros bytes).length ≤ bytes.length :=
  (List.dropWhile_sublist _).length_le

theorem trimZeros_of_head {bytes : Bytes} (head : bytes.head?.any (· ≠ 0) = true) :
    trimZeros bytes = bytes := by
  cases bytes with
  | nil => rfl
  | cons b rest =>
      have nonzero : b ≠ 0 := by simpa using head
      simp [trimZeros, nonzero]

theorem toNatBE_pos_of_head {bytes : Bytes} (head : bytes.head?.any (· ≠ 0) = true) :
    0 < toNatBE bytes := by
  cases bytes with
  | nil => simp at head
  | cons b rest =>
      have nonzero : b ≠ 0 := by simpa using head
      exact Nat.lt_of_lt_of_le (Nat.pow_pos (by decide)) (pow_le_toNatBE nonzero)

theorem trimZeros_head_iff (bytes : Bytes) :
    (trimZeros bytes).head?.any (· ≠ 0) = true ↔ 0 < toNatBE bytes := by
  rw [← toNatBE_trimZeros]
  constructor
  · exact toNatBE_pos_of_head
  · intro positive
    have first := List.head?_dropWhile_not (· == (0 : UInt8)) bytes
    cases trimmed : trimZeros bytes with
    | nil => simp [trimmed, toNatBE] at positive
    | cons b rest =>
        rw [trimZeros] at trimmed
        simpa [trimmed] using first

theorem toNatBE_ofNatMinimal (n : Nat) : toNatBE (ofNatMinimal n) = n := by
  rw [ofNatMinimal, toNatBE_trimZeros]
  apply toNatBE_ofNatBE_of_lt
  calc n < 2 ^ (Nat.log2 n + 1) := Nat.lt_log2_self
    _ ≤ 2 ^ (8 * (Nat.log2 n / 8 + 1)) := Nat.pow_le_pow_right (by decide) (by omega)
    _ = 256 ^ (Nat.log2 n / 8 + 1) := by rw [Nat.pow_mul]

theorem length_ofNatMinimal_le {n bits : Nat} (small : n < 2 ^ (8 * bits)) (some : 0 < bits) :
    (ofNatMinimal n).length ≤ bits := by
  have trimmed := length_trimZeros_le (ofNatBE (Nat.log2 n / 8 + 1) n)
  rw [length_ofNatBE] at trimmed
  have log : n = 0 ∨ Nat.log2 n < 8 * bits := by
    by_cases zero : n = 0
    · exact .inl zero
    · exact .inr ((Nat.log2_lt zero).mpr small)
  unfold ofNatMinimal
  rcases log with rfl | log
  · have : Nat.log2 0 = 0 := by decide
    omega
  · omega

theorem length_ofNatMinimal_pos {n : Nat} (positive : 0 < n) : 0 < (ofNatMinimal n).length := by
  apply List.length_pos_iff.mpr
  intro empty
  have zero := toNatBE_ofNatMinimal n
  rw [empty] at zero
  simp [toNatBE] at zero
  omega

end Bytes

namespace Der

open Bytes

variable {tag : UInt8} {content rest bytes : Bytes} {n : Nat}

theorem length_ofNatMinimal_le_four (small : n ≤ maxLength) : (ofNatMinimal n).length ≤ 4 :=
  length_ofNatMinimal_le (Nat.lt_of_le_of_lt small (by decide)) (by decide)

theorem length?_lengthBytes (rest : Bytes) (small : n ≤ maxLength) :
    length? (lengthBytes n ++ rest) = some (n, rest) := by
  unfold lengthBytes
  split
  next short =>
    have byte : (UInt8.ofNat n).toNat = n := by rw [UInt8.toNat_ofNat']; omega
    have low : UInt8.ofNat n < 0x80 := by rw [UInt8.lt_iff_toNat_lt, byte]; exact short
    simp [length?, low, byte]
  next long =>
    have some : 0 < (ofNatMinimal n).length := length_ofNatMinimal_pos (by omega)
    have few := length_ofNatMinimal_le_four small
    have byte : (UInt8.ofNat (128 + (ofNatMinimal n).length)).toNat =
        128 + (ofNatMinimal n).length := by
      rw [UInt8.toNat_ofNat']
      omega
    have high : ¬ UInt8.ofNat (128 + (ofNatMinimal n).length) < 0x80 := by
      rw [UInt8.lt_iff_toNat_lt, byte]
      simp
    have written : lengthBytes n = UInt8.ofNat (128 + (ofNatMinimal n).length) :: ofNatMinimal n :=
      if_neg long
    simp only [List.cons_append, length?, if_neg high, byte, Nat.add_sub_cancel_left,
      List.take_left, List.drop_left, toNatBE_ofNatMinimal]
    exact if_pos ⟨some, few, trivial, small, written⟩

theorem length?_eq_some_iff :
    length? bytes = some (n, rest) ↔ n ≤ maxLength ∧ bytes = lengthBytes n ++ rest := by
  constructor
  · intro read
    cases bytes with
    | nil => cases read
    | cons b tail =>
        simp only [length?] at read
        split at read
        next low =>
          cases read
          have small : b.toNat < 128 := UInt8.lt_iff_toNat_lt.mp low
          have bounded : b.toNat ≤ maxLength := by unfold maxLength; omega
          exact ⟨bounded, by simp [lengthBytes, small]⟩
        next high =>
          split at read
          next shortest =>
            simp only [Option.some.injEq, Prod.mk.injEq] at read
            obtain ⟨rfl, rfl⟩ := read
            obtain ⟨_, _, _, small, written⟩ := shortest
            exact ⟨small, by rw [written, List.cons_append, List.take_append_drop]⟩
          next => cases read
  · rintro ⟨small, rfl⟩
    exact length?_lengthBytes rest small

theorem element?_eq_some_iff {e : Element} :
    element? bytes = some (e, rest) ↔
      isTag e.tag = true ∧ e.content.length ≤ maxLength ∧ bytes = e.encode ++ rest := by
  constructor
  · intro read
    cases bytes with
    | nil => cases read
    | cons tag tail =>
        simp only [element?] at read
        split at read
        next known =>
          split at read
          next n more sized =>
            obtain ⟨small, rfl⟩ := length?_eq_some_iff.mp sized
            split at read
            next enough =>
              cases read
              have size : (more.take n).length = n := List.length_take_of_le enough
              refine ⟨known, by rw [size]; exact small, ?_⟩
              simp [Element.encode, Nat.min_eq_left enough]
            next => cases read
          next => cases read
        next => cases read
  · rintro ⟨known, small, rfl⟩
    have sized := length?_lengthBytes (e.content ++ rest) small
    simp [Element.encode, element?, known, sized]

theorem tagged?_eq_some_iff :
    tagged? tag bytes = some (content, rest) ↔
      isTag tag = true ∧ content.length ≤ maxLength ∧ bytes = encode tag content ++ rest := by
  constructor
  · intro read
    unfold tagged? at read
    split at read
    next e more found =>
      split at read
      next same =>
        cases read
        rw [← same]
        exact element?_eq_some_iff.mp found
      next => cases read
    next => cases read
  · intro written
    have found := element?_eq_some_iff (e := ⟨tag, content⟩).mpr written
    simp [tagged?, found]

theorem length_encode_ge (tag : UInt8) (content : Bytes) :
    content.length ≤ (encode tag content).length := by
  simp [encode, Element.encode]
  omega

theorem only?_eq_some_iff :
    only? tag bytes = some content ↔
      isTag tag = true ∧ bytes.length ≤ maxLength ∧ bytes = encode tag content := by
  constructor
  · intro read
    unfold only? at read
    split at read
    next small =>
      split at read
      next found =>
        cases read
        obtain ⟨known, _, written⟩ := tagged?_eq_some_iff.mp found
        exact ⟨known, small, by rw [written, List.append_nil]⟩
      next => cases read
    next => cases read
  · rintro ⟨known, small, rfl⟩
    have inside := Nat.le_trans (length_encode_ge tag content) small
    have found : tagged? tag (encode tag content) = some (content, []) :=
      tagged?_eq_some_iff.mpr ⟨known, inside, (List.append_nil _).symm⟩
    simp [only?, small, found]

/-- The bytes of a number: no zero stands first, but for the number zero. -/
def IsMagnitude (magnitude : Bytes) : Prop :=
  magnitude = [0] ∨ magnitude.head?.any (· ≠ 0) = true

theorem magnitude?_eq_some_iff {magnitude : Bytes} :
    magnitude? content = some magnitude ↔
      IsMagnitude magnitude ∧ content = naturalContent magnitude := by
  constructor
  · intro read
    rcases content with _ | ⟨b, _ | ⟨c, more⟩⟩
    case nil => cases read
    case cons.nil =>
      simp only [magnitude?] at read
      split at read
      next low =>
        cases read
        refine ⟨?_, by simp [naturalContent, low]⟩
        by_cases zero : b = 0
        · exact .inl (by rw [zero])
        · exact .inr (by simpa using zero)
      next => cases read
    case cons.cons =>
      simp only [magnitude?] at read
      split at read
      next zero =>
        split at read
        next => cases read
        next high =>
          cases read
          refine ⟨.inr ?_, ?_⟩
          · simp only [List.head?_cons, Option.any_some, decide_eq_true_eq]
            rintro rfl
            exact high (by decide)
          · simp [naturalContent, high, zero]
      next nonzero =>
        split at read
        next low =>
          cases read
          exact ⟨.inr (by simpa using nonzero), by simp [naturalContent, low]⟩
        next => cases read
  · rintro ⟨shape, rfl⟩
    rcases magnitude with _ | ⟨b, _ | ⟨c, more⟩⟩
    case nil => simp [IsMagnitude] at shape
    case cons.nil =>
      by_cases high : 0x80 ≤ b
      · simp [naturalContent, magnitude?, high]
      · simp [naturalContent, magnitude?, high]
    case cons.cons =>
      have nonzero : b ≠ 0 := by simpa [IsMagnitude] using shape
      by_cases high : 0x80 ≤ b
      · simp [naturalContent, magnitude?, high]
      · simp [naturalContent, magnitude?, high, nonzero]

theorem natural?_eq_some_iff {magnitude : Bytes} :
    natural? bytes = some (magnitude, rest) ↔
      IsMagnitude magnitude ∧ (naturalContent magnitude).length ≤ maxLength ∧
        bytes = natural magnitude ++ rest := by
  simp only [natural?, Option.bind_eq_bind, Option.bind_eq_some_iff, Prod.exists,
    Option.pure_def, Option.some.injEq, Prod.mk.injEq]
  constructor
  · intro read
    obtain ⟨content, more, found, magnitude', shaped, rfl, rfl⟩ := read
    obtain ⟨shape, rfl⟩ := magnitude?_eq_some_iff.mp shaped
    obtain ⟨_, small, written⟩ := tagged?_eq_some_iff.mp found
    exact ⟨shape, small, written⟩
  · intro written
    obtain ⟨shape, small, written⟩ := written
    exact ⟨naturalContent magnitude, rest, tagged?_eq_some_iff.mpr ⟨by decide, small, written⟩,
      magnitude, magnitude?_eq_some_iff.mpr ⟨shape, rfl⟩, rfl, rfl⟩

theorem length_natural_ge (magnitude : Bytes) :
    (naturalContent magnitude).length ≤ (natural magnitude).length :=
  length_encode_ge _ _

end Der

end SealedContainer
