import SealedContainer.Container
import SealedContainer.Proofs.Key.Wrapping

/-!
Records as recipients. The strict reading decodes every key of a record on the curve that the
record names; the lenient one compares bytes and decodes the sender's key on the caller's curve.
Both see the same recipient wherever the strict reading succeeds.
-/

namespace SealedContainer.Container

open Outcome

theorem orThrow_eq_ok {α : Type} {e : CryptoError} {x : Option α} {a : α} :
    orThrow e x = .ok a ↔ x = some a := by
  cases x <;> simp [orThrow]

theorem orThrow_eq_error {α : Type} {e f : CryptoError} {x : Option α} :
    orThrow e x = .error f ↔ x = none ∧ e = f := by
  cases x <;> simp [orThrow]

theorem headerKey_eq_ok {curve : Curve} {side : Side} {bytes : Bytes} {key : EcPublicKey} :
    headerKey curve side bytes = .ok key ↔ EcPublicKey.decode curve bytes = .ok key :=
  mapError_eq_ok

theorem eccRecipient_eq_ok {d : Header.EccDetails} {wrapped : Bytes} {r : EccRecipient} :
    eccRecipient d wrapped = .ok r ↔
      Curve.ofTag? d.curve.toInt = some r.curve ∧ r.wrappedKey = wrapped ∧
        ∃ recipient sender, d.recipient = some recipient ∧ d.sender = some sender ∧
          EcPublicKey.decode r.curve recipient = .ok r.recipient ∧
          EcPublicKey.decode r.curve sender = .ok r.sender := by
  simp only [eccRecipient, curveOfTag, bind_eq_ok, orThrow_eq_ok, headerKey_eq_ok, pure_eq_ok,
    Except.ok.injEq]
  constructor
  · rintro ⟨curve, tag, recipient, hasRecipient, sender, hasSender, first, decoded, second,
      other, rfl⟩
    exact ⟨tag, rfl, recipient, sender, hasRecipient, hasSender, decoded, other⟩
  · rintro ⟨tag, rfl, recipient, sender, hasRecipient, hasSender, decoded, other⟩
    exact ⟨r.curve, tag, recipient, hasRecipient, sender, hasSender, r.recipient, decoded,
      r.sender, other, rfl⟩

theorem recipient_eq_ok {r : Header.Record} {found : Recipient} :
    recipient r = .ok found ↔
      r.keyMethod = 1 ∧ ∃ wrapped, r.wrappedKey = some wrapped ∧ wrapped.length = keySize ∧
        ((r.detailsType = 1 ∧ ∃ d e, r.ecc? = some d ∧ eccRecipient d wrapped = .ok e ∧
            found = .ecc e) ∨
          (r.detailsType = 2 ∧ ∃ d s, r.server? = some d ∧ serverRecipient d wrapped = .ok s ∧
            found = .server s)) := by
  unfold recipient
  by_cases method : r.keyMethod = 1
  · simp only [method, ne_eq, not_true_eq_false, if_false, true_and]
    simp only [bind_eq_ok, orThrow_eq_ok]
    apply exists_congr
    intro wrapped
    apply and_congr_right
    intro _
    by_cases size : wrapped.length = keySize
    · simp only [size, not_true_eq_false, if_false, true_and]
      by_cases one : r.detailsType = 1
      · simp [one, bind_eq_ok, orThrow_eq_ok, @eq_comm _ found]
      · by_cases two : r.detailsType = 2
        · simp [two, bind_eq_ok, orThrow_eq_ok, @eq_comm _ found]
        · simp [one, two]
    · simp [size]
  · simp [method]

def addressed (own : EcKeyPair) (r : Header.Record) : Prop :=
  r.ecc?.bind (·.recipient) = some own.publicKey.encode

instance (own : EcKeyPair) (r : Header.Record) : Decidable (addressed own r) := by
  unfold addressed; infer_instance

theorem findRecord_eq_some {h : Header} {own : EcKeyPair} {r : Header.Record} :
    findRecord h own = some r ↔
      ∃ i : Nat, (h.records.getD [])[i]? = some r ∧ addressed own r ∧
        ∀ j : Nat, j < i → ∀ s, (h.records.getD [])[j]? = some s → ¬ addressed own s := by
  unfold findRecord
  rw [List.find?_eq_some_iff_getElem]
  simp only [decide_eq_true_eq, Bool.not_eq_true', decide_eq_false_iff_not]
  constructor
  · rintro ⟨found, i, inside, rfl, before⟩
    refine ⟨i, List.getElem?_eq_getElem inside, found, ?_⟩
    intro j less s there
    rcases List.getElem?_eq_some_iff.mp there with ⟨bound, rfl⟩
    exact before j less
  · rintro ⟨i, there, found, before⟩
    rcases List.getElem?_eq_some_iff.mp there with ⟨inside, same⟩
    refine ⟨found, i, inside, same, ?_⟩
    intro j less
    exact before j less _ (List.getElem?_eq_getElem (Nat.lt_trans less inside))

theorem findRecord_eq_none {h : Header} {own : EcKeyPair} :
    findRecord h own = none ↔ ∀ r ∈ h.records.getD [], ¬ addressed own r := by
  simp [findRecord, addressed]

/-- Where the strict reading succeeds, a record holds the caller's bytes if and only if it is that
of a recipient with the caller's key: the bytes of a key are read as this key alone. -/
theorem addressed_iff {r : Header.Record} {found : Recipient} (strict : recipient r = .ok found)
    (own : EcKeyPair) : addressed own r ↔ ∃ e, found = .ecc e ∧ e.recipient = own.publicKey := by
  rcases recipient_eq_ok.mp strict with ⟨_, wrapped, _, _, kind⟩
  rcases kind with ⟨_, d, e, details, decoded, rfl⟩ | ⟨_, d, s, details, _, rfl⟩
  · rcases eccRecipient_eq_ok.mp decoded with ⟨_, _, recipient, sender, hasRecipient, _, read, _⟩
    simp only [addressed, details, Option.bind_some, hasRecipient, Option.some.injEq,
      Recipient.ecc.injEq, exists_eq_left']
    constructor
    · rintro rfl
      exact (EcPublicKey.eq_of_decode_encode read).1
    · intro same
      rw [(EcPublicKey.eq_encode_of_decode read).2, same]
  · have other : r.ecc? = none := by
      unfold Header.Record.server? at details
      unfold Header.Record.ecc?
      split at details
      · rename_i server
        rw [server]
      · cases details
    simp [addressed, other]

theorem recoverKey_eq_ok {r : Header.Record} {own : EcKeyPair} {file : SecretKey .file} :
    recoverKey r own = .ok file ↔
      ∃ bytes sender wrapped key, r.ecc?.bind (·.sender) = some bytes ∧
        EcPublicKey.decode own.curve bytes = .ok sender ∧ r.wrappedKey = some wrapped ∧
          wrapped.length = keySize ∧ recipientWrappingKey own sender = .ok key ∧
            file.bytes = Bytes.xor wrapped key.bytes := by
  simp only [recoverKey, bind_eq_ok, orThrow_eq_ok, mapError_eq_ok, Option.filter_eq_some_iff,
    decide_eq_true_eq, SecretKey.unwrap_eq_ok]
  constructor
  · rintro ⟨bytes, there, sender, read, wrapped, ⟨held, size⟩, key, derived, _, same⟩
    exact ⟨bytes, sender, wrapped, key, there, read, held, size, derived, same⟩
  · rintro ⟨bytes, sender, wrapped, key, there, read, held, size, derived, same⟩
    exact ⟨bytes, there, sender, read, wrapped, ⟨held, size⟩, key, derived, size, same⟩

theorem recoverKey_of_strict {r : Header.Record} {e : EccRecipient} {own : EcKeyPair}
    (strict : recipient r = .ok (.ecc e)) (ours : e.recipient = own.publicKey)
    (file : SecretKey .file) :
    recoverKey r own = .ok file ↔
      ∃ key, recipientWrappingKey own e.sender = .ok key ∧
        file.bytes = Bytes.xor e.wrappedKey key.bytes := by
  rcases recipient_eq_ok.mp strict with ⟨_, wrapped, held, size, kind⟩
  rcases kind with ⟨_, d, e', details, decoded, same⟩ | ⟨_, d, s, _, _, other⟩
  · cases same
    rcases eccRecipient_eq_ok.mp decoded with ⟨_, same, recipient, sender, _, hasSender, read,
      readSender⟩
    have curves : e.curve = own.curve := by
      rw [EcKeyPair.curve, ← ours]
      exact (EcPublicKey.eq_encode_of_decode read).1.symm
    rw [curves] at readSender
    rw [recoverKey_eq_ok, same]
    simp only [details, Option.bind_some, hasSender, Option.some.injEq, held]
    constructor
    · rintro ⟨_, other, _, key, rfl, again, rfl, _, derived, unwrapped⟩
      rw [readSender] at again
      cases again
      exact ⟨key, derived, unwrapped⟩
    · rintro ⟨key, derived, unwrapped⟩
      exact ⟨sender, e.sender, wrapped, key, rfl, readSender, rfl, size, derived, unwrapped⟩
  · cases other

/-- Whatever is wrong with a record that is addressed to the caller counts as tampering. -/
theorem kind_of_recoverKey_eq_error {r : Header.Record} {own : EcKeyPair} {e : CryptoError}
    (failed : recoverKey r own = .error e) : e.kind = .authentication := by
  unfold recoverKey at failed
  rcases bind_eq_error.mp failed with missing | ⟨bytes, _, failed⟩
  · rw [← (orThrow_eq_error.mp missing).2]
    rfl
  rcases bind_eq_error.mp failed with undecoded | ⟨sender, read, failed⟩
  · cases decoded : EcPublicKey.decode own.curve bytes with
    | ok key => simp [decoded, Except.mapError] at undecoded
    | error fault =>
        simp only [decoded, Except.mapError, Except.error.injEq] at undecoded
        rw [← undecoded]
        rfl
  rcases bind_eq_error.mp failed with missing | ⟨wrapped, held, failed⟩
  · rw [← (orThrow_eq_error.mp missing).2]
    rfl
  -- A decoded key is on the caller's curve and the wrapped key has its size: nothing is left to
  -- fail.
  have curves := (EcPublicKey.eq_encode_of_decode (mapError_eq_ok.mp read)).1
  rcases recipientWrappingKey_eq_ok own sender curves with ⟨key, derived⟩
  have size : wrapped.length = keySize := by
    simpa using (Option.filter_eq_some_iff.mp (orThrow_eq_ok.mp held)).2
  rw [derived, ok_bind, SecretKey.unwrap, dif_pos size] at failed
  cases failed

end SealedContainer.Container
