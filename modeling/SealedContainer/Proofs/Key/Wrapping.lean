import SealedContainer.Key.Secret
import SealedContainer.Proofs.Key.Codec

/-!
Wrapping a file key. Both sides of a key agreement derive one wrapping key, because each derivation
names the recipient first and the sender second, and what is wrapped under it comes back.
-/

namespace SealedContainer

open Outcome

theorem EcKeyPair.agree_eq_ok (pair : EcKeyPair) (peer : EcPublicKey)
    (curves : peer.curve = pair.curve) : ∃ shared, pair.agree peer = .ok shared := by
  unfold agree
  rw [if_neg (by simp [curves])]
  split
  · exact ⟨_, rfl⟩
  · exact ⟨_, rfl⟩

theorem EcKeyPair.agree_of_ne {pair : EcKeyPair} {peer : EcPublicKey}
    (curves : peer.curve ≠ pair.curve) :
    pair.agree peer = .error (.agreementCurves pair.curve peer.curve) := by
  rw [agree, if_pos curves]
  rfl

theorem sharedWrappingKey_eq_ok (own : EcKeyPair) (peer recipient sender : EcPublicKey)
    (curves : peer.curve = own.curve) :
    ∃ key, sharedWrappingKey own peer recipient sender = .ok key := by
  rcases own.agree_eq_ok peer curves with ⟨shared, agreed⟩
  exact ⟨SecretKey.derive .wrapping (premaster shared) (Purpose.wrapping recipient sender).info,
    by rw [sharedWrappingKey, agreed]; rfl⟩

theorem sharedWrappingKey_of_ne {own : EcKeyPair} {peer : EcPublicKey} (recipient sender : EcPublicKey)
    (curves : peer.curve ≠ own.curve) :
    sharedWrappingKey own peer recipient sender =
      .error (.agreementCurves own.curve peer.curve) := by
  rw [sharedWrappingKey, EcKeyPair.agree_of_ne curves]
  rfl

theorem sharedWrappingKey_isOk_iff (own : EcKeyPair) (peer recipient sender : EcPublicKey) :
    (∃ key, sharedWrappingKey own peer recipient sender = .ok key) ↔ peer.curve = own.curve := by
  constructor
  · intro derived
    by_contra curves
    obtain ⟨key, same⟩ := derived
    rw [sharedWrappingKey_of_ne recipient sender curves] at same
    cases same
  · exact sharedWrappingKey_eq_ok own peer recipient sender

theorem recipientWrappingKey_eq_ok (own : EcKeyPair) (sender : EcPublicKey)
    (curves : sender.curve = own.curve) : ∃ key, recipientWrappingKey own sender = .ok key :=
  sharedWrappingKey_eq_ok own sender own.publicKey sender curves

theorem senderWrappingKey_eq_ok (sender : EcKeyPair) (recipient : EcPublicKey)
    (curves : recipient.curve = sender.curve) :
    ∃ key, senderWrappingKey sender recipient = .ok key :=
  sharedWrappingKey_eq_ok sender recipient recipient sender.publicKey curves

/-- The key pair of the scalar one, whose public key is the generator. -/
def EcKeyPair.one (c : Curve) : EcKeyPair :=
  (EcKeyPair.ofScalar? c 1).get (by cases c <;> decide +kernel)

theorem recipientWrappingKey_eq_senderWrappingKey (sender recipient : EcKeyPair)
    (agreement : sender.agree recipient.publicKey = recipient.agree sender.publicKey) :
    recipientWrappingKey recipient sender.publicKey =
      senderWrappingKey sender recipient.publicKey := by
  rw [recipientWrappingKey, senderWrappingKey, sharedWrappingKey, sharedWrappingKey, agreement]

namespace SecretKey

@[simp] theorem length_wrap (file : SecretKey .file) (key : SecretKey .wrapping) :
    (file.wrap key).length = keySize := by
  simp [wrap, maskedWith, file.size, key.size]

theorem unwrap_eq_ok {wrapped : Bytes} {key : SecretKey .wrapping} {file : SecretKey .file} :
    unwrap wrapped key = .ok file ↔
      wrapped.length = keySize ∧ file.bytes = Bytes.xor wrapped key.bytes := by
  unfold unwrap
  by_cases size : wrapped.length = keySize
  · rw [dif_pos size]
    simp only [pure_eq_ok, Except.ok.injEq, size, true_and]
    constructor
    · rintro rfl
      rfl
    · intro same
      cases file
      cases same
      rfl
  · rw [dif_neg size]
    simp [size]

theorem unwrap_wrap (file : SecretKey .file) (key : SecretKey .wrapping) :
    unwrap (file.wrap key) key = .ok file := by
  rw [unwrap_eq_ok]
  refine ⟨length_wrap file key, ?_⟩
  exact (Bytes.xor_xor _ _ (by simp [file.size, key.size])).symm

theorem verifyHeader_eq_ok {key : SecretKey .headerMac} {header mac : Bytes} :
    key.verifyHeader header mac = .ok () ↔ key.headerMac header = mac := by
  unfold verifyHeader
  by_cases same : key.headerMac header = mac <;> simp [same]

end SecretKey

end SealedContainer
