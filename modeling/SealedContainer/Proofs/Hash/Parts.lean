import SealedContainer.Hash.Hmac

/-!
Messages that are hashed in parts. Main statements: `Running.digest_eq` and `Hkdf.expand?_eq`. After
any parts the hash is that of their concatenation, and so is everything that is derived with it. The
invariant of a running hash is that whole blocks are in the state and the rest of the message is not.
-/

namespace SealedContainer

theorem Bytes.chunks_append {size : Nat} (positive : 0 < size) (front back : Bytes)
    (whole : size ∣ front.length) :
    chunks size (front ++ back) = chunks size front ++ chunks size back := by
  fun_induction chunks size front with
  | case1 => rfl
  | case2 b rest ih =>
      obtain ⟨count, length⟩ := whole
      obtain ⟨count, rfl⟩ : ∃ k, count = k + 1 := by
        apply Nat.exists_eq_succ_of_ne_zero
        rintro rfl
        simp at length
      have long : size - 1 ≤ rest.length := by
        rw [List.length_cons, Nat.mul_succ] at length
        omega
      have later : size ∣ (rest.drop (size - 1)).length := by
        refine ⟨count, ?_⟩
        rw [List.length_cons, Nat.mul_succ] at length
        rw [List.length_drop]
        omega
      rw [List.cons_append, chunks, List.take_append_of_le_length long,
        List.drop_append_of_le_length long, ih later]
      rfl

namespace Sha256.Running

/-- What has come is a number of whole blocks, folded into the state, and the bytes behind them. -/
structure Holds (r : Running) (message : Bytes) : Prop where
  count : r.count = message.length
  blocks : ∃ front, message = front ++ r.begun ∧ 64 ∣ front.length ∧
    r.state = (Bytes.chunks 64 front).foldl compress initial

theorem holds_start : start.Holds [] where
  count := rfl
  blocks := ⟨[], rfl, Nat.dvd_zero _, by rw [Bytes.chunks]; rfl⟩

theorem Holds.update {r : Running} {message : Bytes} (holds : r.Holds message) (part : Bytes) :
    (r.update part).Holds (message ++ part) := by
  obtain ⟨front, split, whole, folded⟩ := holds.blocks
  let bytes := r.begun ++ part
  let size := 64 * (bytes.length / 64)
  have inside : size ≤ bytes.length := Nat.mul_div_le _ _
  have more : 64 ∣ (bytes.take size).length := by
    rw [List.length_take_of_le inside]
    exact Nat.dvd_mul_right _ _
  constructor
  · rw [List.length_append, ← holds.count]
    rfl
  · refine ⟨front ++ bytes.take size, ?_, ?_, ?_⟩
    · calc message ++ part
        _ = front ++ bytes := by rw [split, List.append_assoc]
        _ = front ++ (bytes.take size ++ bytes.drop size) := by rw [List.take_append_drop]
        _ = front ++ bytes.take size ++ bytes.drop size := (List.append_assoc ..).symm
    · rw [List.length_append]
      exact Nat.dvd_add whole more
    · rw [Bytes.chunks_append (by decide) _ _ whole, List.foldl_append, ← folded]
      rfl

theorem Holds.foldl {r : Running} {message : Bytes} (holds : r.Holds message) (parts : List Bytes) :
    (parts.foldl Running.update r).Holds (message ++ parts.flatten) := by
  -- By induction on the parts, each of which keeps the invariant.
  induction parts generalizing r message with
  | nil => simpa using holds
  | cons part parts ih =>
      rw [List.foldl_cons, List.flatten_cons, ← List.append_assoc]
      exact ih (holds.update part)

theorem Holds.digest_eq {r : Running} {message : Bytes} (holds : r.Holds message) :
    r.digest = sha256 message := by
  obtain ⟨front, split, whole, folded⟩ := holds.blocks
  have padded : Bytes.chunks 64 (message ++ padding message.length) =
      Bytes.chunks 64 front ++ Bytes.chunks 64 (r.begun ++ padding message.length) := by
    rw [← Bytes.chunks_append (by decide) _ _ whole, ← List.append_assoc, ← split]
  rw [digest, sha256, holds.count, folded, padded, List.foldl_append]

end Sha256.Running

theorem Hmac.finish_foldl (key : Bytes) (parts : List Bytes) :
    finish key (parts.foldl Sha256.Running.update (start key)) = hmacSha256 key parts.flatten := by
  have begun := Sha256.Running.holds_start.update ((keyBlock key).map (· ^^^ 0x36))
  rw [List.nil_append] at begun
  rw [finish, hmacSha256, start, (begun.foldl parts).digest_eq]

namespace Hkdf

/-- Block by block, what is filled is the front of the chain of blocks. -/
theorem fill_eq (key : Bytes) (info : List Bytes) (length index : Nat) (last : Bytes) :
    fill key info length (UInt8.ofNat index) last =
      (blocks key info.flatten ((length + 31) / 32) index last).take length := by
  induction length using Nat.strongRecOn generalizing index last with
  | ind length ih =>
      rw [fill]
      split
      next empty =>
        subst empty
        rfl
      next full =>
        have count : (length + 31) / 32 = (length - 32 + 31) / 32 + 1 := by omega
        have parts : (last :: info ++ [[UInt8.ofNat index]]).flatten =
            last ++ info.flatten ++ [UInt8.ofNat index] := by simp
        have next : UInt8.ofNat index + 1 = UInt8.ofNat (index + 1) := by simp
        have rest := ih (length - 32) (by omega) (index + 1)
        simp only [Hmac.finish_foldl, parts, next, rest, count, blocks, List.take_append,
          length_hmacSha256]

theorem expand?_eq (key : Bytes) (info : List Bytes) (length : Nat) :
    expand? key info length =
      if length ≤ maxLength then some (expand key info.flatten length) else none := by
  rw [expand?, expand, ← fill_eq]
  rfl

end Hkdf

end SealedContainer
