import SealedContainer.Capsule.Service
import Mathlib.Data.List.Basic

/-!
What a server's store does to the capsule under one id, and what the parts that make up a stored
capsule can be: ids, expiries and recipients.
-/

namespace SealedContainer

namespace Instant

theorem lt_irrefl (t : Instant) : ¬ t < t := by
  intro before
  rcases before with seconds | ⟨_, nanos⟩
  · exact Int.lt_irrefl _ seconds
  · exact Nat.lt_irrefl _ nanos

theorem le_refl (t : Instant) : t ≤ t := lt_irrefl t

theorem earlier_le (a b : Instant) : a.earlier b ≤ b := by
  unfold earlier
  split
  next => exact le_refl b
  next notBefore => exact notBefore

end Instant

namespace ExpiryPolicy

variable (policy : ExpiryPolicy) (requested : Option Instant) (now : Instant)

theorem resolve_le : (policy.resolve requested now).expiry ≤ now.addBounded policy.max := by
  cases requested with
  | none => exact Instant.earlier_le _ _
  | some t =>
      simp only [resolve]
      split
      next => exact Instant.le_refl _
      next notLater => exact notLater

theorem eq_of_adjusted (adjusted : (policy.resolve requested now).adjusted = true) :
    (policy.resolve requested now).expiry = now.addBounded policy.max := by
  cases requested with
  | none => simp [resolve] at adjusted
  | some t =>
      simp only [resolve] at adjusted ⊢
      split at adjusted
      next later => rw [if_pos later]
      next => simp at adjusted

end ExpiryPolicy

namespace TransactionId

def digits : List Char := "0123456789abcdef".toList

def Issued (id : String) : Prop :=
  ∃ number : List Char, id.toList = mark.toList ++ number ∧
    number.length = 2 * entropySize ∧ ∀ c ∈ number, c ∈ digits

theorem digitChar_mem (n : Fin 16) : Nat.digitChar n ∈ digits := by
  revert n
  decide

theorem isSome_digit? : ∀ c ∈ digits, (Hex.digit? c).isSome :=
  List.all_eq_true.mp (by decide)

theorem mem_digits_of_mem {entropy : Bytes} {c : Char} (member : c ∈ entropy.flatMap Hex.digits) :
    c ∈ digits := by
  obtain ⟨b, _, digit⟩ := List.mem_flatMap.mp member
  have bounded : b.toNat < 256 := b.toNat_lt
  simp only [Hex.digits, List.mem_cons, List.not_mem_nil, or_false] at digit
  rcases digit with rfl | rfl
  · exact digitChar_mem ⟨b.toNat / 16, by omega⟩
  · exact digitChar_mem ⟨b.toNat % 16, by omega⟩

theorem issued_ofBytes {entropy : Bytes} (size : entropy.length = entropySize) :
    Issued (ofBytes entropy) := by
  refine ⟨entropy.flatMap Hex.digits, by simp [ofBytes, Hex.encode], ?_, ?_⟩
  · rw [← size, List.length_flatMap]
    simp [Hex.digits, Nat.mul_comm]
  · intro c member
    exact mem_digits_of_mem member

theorem Issued.isWellFormed {id : String} (issued : Issued id) : isWellFormed id = true := by
  obtain ⟨number, text, size, digit⟩ := issued
  have rest : id.toList.drop mark.length = number := by
    rw [text, ← String.length_toList, List.drop_left]
  simp only [TransactionId.isWellFormed, rest, Bool.and_eq_true, List.all_eq_true, beq_iff_eq]
  refine ⟨⟨?_, size⟩, fun c member => isSome_digit? c (digit c member)⟩
  rw [text, List.isPrefixOf_iff_prefix]
  exact List.prefix_append _ _

end TransactionId

namespace Capsule

theorem isSome_recipient_of_validate {c : Capsule} (valid : c.validate = .ok ()) :
    ∃ recipient, c.recipient = some recipient := by
  obtain ⟨kind, recipient, keyMaterial⟩ := c
  cases recipient with
  | some recipient => exact ⟨recipient, rfl⟩
  | none => cases kind <;> cases valid

end Capsule

namespace StoredCapsule

/-- A record that the server made of a capsule which passed the checks. -/
def Admitted (policy : ExpiryPolicy) (r : StoredCapsule) : Prop :=
  ∃ (capsule : Capsule) (requested : Option Instant) (now : Instant),
    capsule.validate = .ok () ∧ capsule.recipient = some r.recipient ∧
      r = capsule.record (policy.resolve requested now) now r.id

theorem admitted_record {capsule : Capsule} (policy : ExpiryPolicy) (requested : Option Instant)
    (now : Instant) (id : String) (valid : capsule.validate = .ok ()) :
    (capsule.record (policy.resolve requested now) now id).Admitted policy := by
  obtain ⟨recipient, named⟩ := Capsule.isSome_recipient_of_validate valid
  exact ⟨capsule, requested, now, valid, by simp [Capsule.record, named], rfl⟩

theorem Admitted.expiry_le {policy : ExpiryPolicy} {r : StoredCapsule} (admitted : r.Admitted policy) :
    r.expiry ≤ r.created.addBounded policy.max := by
  obtain ⟨capsule, requested, now, _, _, made⟩ := admitted
  rw [made]
  exact policy.resolve_le requested now

theorem Admitted.eq_of_adjusted {policy : ExpiryPolicy} {r : StoredCapsule}
    (admitted : r.Admitted policy) (adjusted : r.adjusted = true) :
    r.expiry = r.created.addBounded policy.max := by
  obtain ⟨capsule, requested, now, _, _, made⟩ := admitted
  rw [made] at adjusted ⊢
  exact policy.eq_of_adjusted requested now adjusted

end StoredCapsule

namespace Store

variable {s : Store} {id : String} {r : StoredCapsule}

theorem id_of_find? (found : s.find? id = some r) : r.id = id := by
  simpa using List.find?_some found

theorem mem_of_find? (found : s.find? id = some r) : r ∈ s.records :=
  List.mem_of_find?_eq_some found

theorem find?_of_mem (member : r ∈ s.records) : s.find? r.id = some r := by
  obtain ⟨records, distinct⟩ := s
  obtain ⟨front, back, rfl⟩ := List.append_of_mem member
  have others : ∀ a ∈ front, a.id ≠ r.id := by
    intro a first
    exact (List.pairwise_append.mp distinct).2.2 a first r List.mem_cons_self
  have none : front.find? (·.id = r.id) = none := by simpa [List.find?_eq_none] using others
  simp [find?, none]

theorem insert_of_none (free : s.find? r.id = none) : s.insert r = .ok (s.push r free) :=
  dif_pos free

theorem insert_of_some {taken : StoredCapsule} (found : s.find? r.id = some taken) :
    s.insert r = .error (.duplicate r.id) :=
  dif_neg (by simp [found])

theorem find?_push_of_some {r' : StoredCapsule} (free : s.find? r'.id = none)
    (found : s.find? id = some r) : (s.push r' free).find? id = some r := by
  unfold find? at found
  simp [find?, push, found]

theorem find?_push_self (free : s.find? r.id = none) : (s.push r free).find? r.id = some r :=
  find?_of_mem (by simp [push])

theorem find?_push_of_ne {r' : StoredCapsule} (free : s.find? r'.id = none) (other : r'.id ≠ id) :
    (s.push r' free).find? id = s.find? id := by
  simp [find?, push, other]

theorem find?_sweep_of_expired {now : Instant} (found : s.find? id = some r)
    (expired : r.expiry < now) : (s.sweep now).find? id = none := by
  rw [find?_eq_none]
  intro other member same
  have kept := List.mem_filter.mp member
  have again := find?_of_mem kept.1
  rw [same, found] at again
  cases again
  simp [StoredCapsule.expiredAt, expired] at kept

theorem find?_sweep_of_not_expired {now : Instant} (found : s.find? id = some r)
    (current : ¬ r.expiry < now) : (s.sweep now).find? id = some r := by
  have kept : r ∈ (s.sweep now).records :=
    List.mem_filter.mpr ⟨mem_of_find? found, by simp [StoredCapsule.expiredAt, current]⟩
  have again := find?_of_mem kept
  rwa [id_of_find? found] at again

theorem find?_sweep_of_none {now : Instant} (missing : s.find? id = none) :
    (s.sweep now).find? id = none := by
  rw [find?_eq_none] at missing ⊢
  intro r member
  exact missing r (List.mem_filter.mp member).1

end Store

namespace Capsule

variable {make : String → StoredCapsule} {draws : Draws} {entropy : Bytes} {s : Store}
  (retries n : Nat)

theorem insertFresh_of_error {e : CryptoError} (drawn : draws n = .error e) :
    insertFresh make draws retries n (.ofStore s) = (.ofStore s, .error (.crypto e)) := by
  unfold insertFresh
  rw [drawn]

theorem insertFresh_of_free (drawn : draws n = .ok entropy)
    (own : (make (TransactionId.ofBytes entropy)).id = TransactionId.ofBytes entropy)
    (free : s.find? (TransactionId.ofBytes entropy) = none) :
    insertFresh make draws retries n (.ofStore s) =
      (.ofStore (s.push (make (TransactionId.ofBytes entropy)) (own.symm ▸ free)),
        .ok (make (TransactionId.ofBytes entropy))) := by
  have inserted := Store.insert_of_none (r := make (TransactionId.ofBytes entropy)) (own.symm ▸ free)
  unfold insertFresh
  rw [drawn]
  simp only [Storage.insert, Storage.call, Storage.ofStore, inserted, List.tail_nil]

theorem insertFresh_of_taken (drawn : draws n = .ok entropy)
    (own : (make (TransactionId.ofBytes entropy)).id = TransactionId.ofBytes entropy)
    {taken : StoredCapsule} (found : s.find? (TransactionId.ofBytes entropy) = some taken) :
    insertFresh make draws retries n (.ofStore s) =
      match retries with
      | 0 => (.ofStore s, .error (.duplicate (TransactionId.ofBytes entropy)))
      | retries + 1 => insertFresh make draws retries (n + 1) (.ofStore s) := by
  rw [← own] at found
  rw [insertFresh.eq_def, drawn]
  cases retries <;>
    simp only [Storage.insert, Storage.call, Storage.ofStore, Store.insert_of_some found,
      List.tail_nil, own]

end Capsule

end SealedContainer
