import SealedContainer.Proofs.Container.Envelope
import SealedContainer.Proofs.Payload

/-!
Every recipient of a container gets its payload back. The header that was written is read as it was
meant, the first record with the recipient's key holds the file key, whichever of several that is,
and both authentication checks are over the bytes that were written.
-/

namespace SealedContainer

open Outcome

namespace Envelope

variable {file : SecretKey .file} {sender own : EcKeyPair} {keys : List EcPublicKey} {e : Envelope}

def container (e : Envelope) (nonce plaintext : Bytes) : Bytes :=
  e.frame.pieces.flatten ++
    Payload.encrypt e.contentKey e.frame.header e.frame.mac nonce plaintext

theorem length_mac_frame (e : Envelope) : e.frame.mac.length = Frame.macSize :=
  length_hmacSha256 ..

theorem encrypt_eq_ok (e : Envelope) (small : e.headerBytes.length < 2 ^ 32) (nonce : Bytes)
    {payload : Source} {plaintext : Bytes} (delivered : payload.readAll = .ok plaintext)
    (fits : Aead.Fits plaintext) {sink : Sink} (sound : sink.Sound) :
    ∃ left : Sink, e.encrypt nonce payload sink = (left, .ok ()) ∧
      left.written = sink.written ++ e.container nonce plaintext := by
  rcases Sink.writeEach_sound sink (e.frame.pieces ++ [Payload.encrypt e.contentKey e.frame.header
    e.frame.mac nonce plaintext]) sound with ⟨left, wrote, all⟩
  have room : ¬ maxHeaderSize < e.frame.header.length := by
    change ¬ 2 ^ 32 - 1 < e.headerBytes.length
    omega
  refine ⟨left, ?_, ?_⟩
  · simp only [encrypt, if_neg room, delivered, if_pos fits, wrote]
    rfl
  · rw [all, List.flatten_append, List.flatten_singleton, container]

theorem container_of_encrypt {nonce : Bytes} {payload : Source} {sink left : Sink}
    (wrote : e.encrypt nonce payload sink = (left, .ok ())) :
    e.headerBytes.length < 2 ^ 32 ∧ ∃ plaintext, payload.readAll = .ok plaintext ∧
      left.written = sink.written ++ e.container nonce plaintext := by
  simp only [encrypt] at wrote
  split at wrote
  · cases (Prod.mk.inj wrote).2
  rename_i room
  have small : ¬ 2 ^ 32 - 1 < e.headerBytes.length := room
  refine ⟨by omega, ?_⟩
  split at wrote
  · cases (Prod.mk.inj wrote).2
  rename_i plaintext delivered
  split at wrote
  · rcases Prod.mk.inj wrote with ⟨kept, result⟩
    refine ⟨plaintext, delivered, ?_⟩
    cases each : sink.writeEach (e.frame.pieces ++
        [Payload.encrypt e.contentKey e.frame.header e.frame.mac nonce plaintext]) with
    | mk last outcome =>
        rw [each] at kept result
        cases outcome with
        | error text => cases result
        | ok _ =>
            subst kept
            rw [Sink.written_of_writeEach sink _ each, List.flatten_append,
              List.flatten_singleton, container]
  · cases (Prod.mk.inj wrote).2

/-- The record of a recipient gives the file key to the holder of the recipient's key. -/
theorem Prepared.recoverKey_record (prepared : Prepared file sender keys e) {r : EccRecipient}
    (member : r ∈ e.recipients) (ours : r.recipient = own.publicKey)
    (agreement : sender.agree own.publicKey = own.agree sender.publicKey) :
    Container.recoverKey r.record own = .ok file := by
  have strict := EccRecipient.recipient_record (prepared.proper r member)
  rw [Container.recoverKey_of_strict strict ours]
  rcases List.getElem_of_mem member with ⟨i, inside, rfl⟩
  have bound : i < keys.length := by rwa [← prepared.length_eq]
  rcases wrapFor_eq_ok.mp (prepared.recipients.get bound inside) with ⟨_, wrapping, derived, same⟩
  simp only [List.get_eq_getElem] at derived same
  rw [same] at ours ⊢
  simp only at ours ⊢
  rw [ours, ← recipientWrappingKey_eq_senderWrappingKey sender own agreement] at derived
  exact ⟨wrapping, derived, (SecretKey.unwrap_eq_ok.mp (SecretKey.unwrap_wrap file wrapping)).2⟩

theorem Prepared.findRecord_header (prepared : Prepared file sender keys e)
    (member : own.publicKey ∈ keys) :
    ∃ r ∈ e.recipients, r.recipient = own.publicKey ∧
      Container.findRecord e.header own = some r.record := by
  rcases List.getElem_of_mem member with ⟨i, inside, same⟩
  have bound : i < e.recipients.length := by rwa [prepared.length_eq]
  rcases wrapFor_eq_ok.mp (prepared.recipients.get inside bound) with ⟨_, wrapping, _, held⟩
  cases found : Container.findRecord e.header own with
  | none =>
      have none_ := Container.findRecord_eq_none.mp found (e.recipients[i]).record
        (List.mem_map_of_mem (List.getElem_mem bound))
      rw [EccRecipient.addressed_record] at none_
      simp only [List.get_eq_getElem] at held
      rw [held] at none_
      exact absurd same none_
  | some r =>
      rcases Container.findRecord_eq_some.mp found with ⟨j, there, matched, _⟩
      rcases List.mem_map.mp (List.mem_of_getElem? there) with ⟨s, listed, rfl⟩
      exact ⟨s, listed, (EccRecipient.addressed_record own s).mp matched, rfl⟩

/-- The header of an envelope is authentic for each of its recipients. -/
theorem Prepared.authenticate_frame (prepared : Prepared file sender keys e)
    (few : keys.length ≤ maxRecords) (member : own.publicKey ∈ keys)
    (agreement : sender.agree own.publicKey = own.agree sender.publicKey) :
    Container.authenticate e.frame own = .ok file := by
  have proper := prepared.proper
  rw [← prepared.length_eq] at few
  rcases prepared.findRecord_header member with ⟨r, listed, ours, found⟩
  refine Container.authenticate_eq_ok.mpr ⟨e.header, r.record, _,
    openHeader_headerBytes proper few, found, prepared.recoverKey_record listed ours agreement, ?_,
    recipients_header proper⟩
  change file.headerMacKey.headerMac e.headerBytes = e.macKey.headerMac e.headerBytes
  rw [prepared.macKey]

end Envelope

namespace Container

/-- What is encrypted for a list of recipients is decrypted by each of them, however the container
is delivered. -/
theorem every_recipient_decrypts (fileKey : Bytes) (size : fileKey.length = 32)
    (sender own : EcKeyPair) (keys : List EcPublicKey) (few : keys.length ≤ 499999)
    (onCurve : ∀ key ∈ keys, key.curve = sender.curve) (member : own.publicKey ∈ keys)
    (agreement : sender.agree own.publicKey = own.agree sender.publicKey)
    (nonce : Bytes) (drawn : nonce.length = Aead.nonceSize)
    (payload : Source) (plaintext : Bytes) (delivered : payload.readAll = .ok plaintext)
    (fits : Aead.Fits plaintext) (sink : Sink) (sound : sink.Sound) :
    ∃ (e : Envelope) (left : Sink) (container : Bytes),
      Envelope.prepare fileKey sender keys = .ok e ∧
      e.encrypt nonce payload sink = (left, .ok ()) ∧
      left.written = sink.written ++ container ∧
      ∀ source : Source, source.readAll = .ok container →
        decrypt Frame.minHeaderSize source own = .ok plaintext := by
  rcases Envelope.exists_prepare size (List.ne_nil_of_mem member) onCurve with ⟨e, prepared⟩
  rcases Envelope.prepare_eq_ok.mp prepared with ⟨_, file, _, each⟩
  have proper := each.proper
  have fewRecipients : e.recipients.length ≤ Envelope.maxRecords := by rwa [each.length_eq]
  have small := Envelope.length_headerBytes_lt proper fewRecipients
  rcases e.encrypt_eq_ok (by omega) nonce delivered fits sound with ⟨left, wrote, all⟩
  refine ⟨e, left, e.container nonce plaintext, prepared, wrote, all, ?_⟩
  intro source whole
  have reach := Envelope.four_le_length_headerBytes proper (by omega)
  have enough : Frame.minHeaderSize ≤ e.frame.header.length := by
    change 1 ≤ e.headerBytes.length
    omega
  have front : e.frame.pieces.flatten <+: source.bytes := by
    rw [Source.bytes_of_readAll source _ whole]
    exact List.prefix_append _ _
  obtain ⟨rest, split, decided⟩ := decrypt_of_frame e.frame e.length_mac_frame
    (show e.headerBytes.length < 2 ^ 32 by omega) enough own source front
  have left : rest.readAll =
      .ok (Payload.encrypt e.contentKey e.frame.header e.frame.mac nonce plaintext) :=
    Source.readAll_of_split (whole.symm.trans split)
  rw [decided, each.authenticate_frame few member agreement, ok_bind, left, each.contentKey]
  exact Payload.decrypt_encrypt _ _ _ _ _ drawn fits

/-- A sender that is its own recipient, twice. -/
theorem sender_decrypts_for_itself :
    ∃ (e : Envelope) (left : Sink) (container : Bytes),
      Envelope.prepare (List.replicate 32 7) (.one .secp256r1)
        [(EcKeyPair.one .secp256r1).publicKey, (EcKeyPair.one .secp256r1).publicKey] = .ok e ∧
      e.encrypt (List.replicate 12 9) [.chunk [1, 2], .chunk [3]] ⟨[.room 5], [8]⟩ =
        (left, .ok ()) ∧
      left.written = [8] ++ container ∧
      ∀ source : Source, source.readAll = .ok container →
        decrypt Frame.minHeaderSize source (.one .secp256r1) = .ok [1, 2, 3] := by
  apply every_recipient_decrypts
  · decide
  · decide
  · simp only [List.mem_cons, List.not_mem_nil, or_false, or_self]
    rintro key rfl
    rfl
  · exact List.mem_cons_self ..
  · rfl
  · decide
  · rfl
  · decide
  · simp [Sink.Sound]

end Container

end SealedContainer
