import SealedContainer.Proofs.Container.Framing
import SealedContainer.Proofs.Container.RoundTrip

/-!
Reading undoes writing. What `prepare` puts into an envelope for a list of keys is found in the
header again, in the order of the keys, and the payload is left as it was written. Main statement:
`prepared_read_back`.
-/

namespace SealedContainer

open Outcome

namespace KeyMaterial

variable {m : KeyMaterial}

theorem ecKey_eq_ok {key : EcPublicKey} :
    m.ecKey = .ok key ↔ m.publicKey? = some (.ec key) := by
  cases m with
  | publicKey held label => cases held <;> simp [ecKey, publicKey?]
  | secret | password => simp [ecKey, publicKey?]

theorem ecKey_of_foreign (foreign : ∀ key, m.publicKey? ≠ some (.ec key)) :
    ∃ what, m.ecKey = .error (.foreignKey m.label what) := by
  cases m with
  | secret | password => exact ⟨_, rfl⟩
  | publicKey held label =>
      cases held with
      | ec key => exact absurd rfl (foreign key)
      | rsa key => exact ⟨_, rfl⟩

end KeyMaterial

theorem Outcome.mapM_eq_error {ε α β : Type} {f : α → Except ε β} {front back : List α} {a : α}
    {e : ε} (passed : ∀ b ∈ front, ∃ c, f b = .ok c) (failed : f a = .error e) :
    (front ++ a :: back).mapM f = .error e := by
  induction front with
  | nil => rw [List.nil_append, List.mapM_cons, failed, error_bind]
  | cons b front ih =>
      obtain ⟨c, first⟩ := passed b (List.mem_cons_self ..)
      have rest := ih fun d member => passed d (List.mem_cons_of_mem _ member)
      rw [List.cons_append, List.mapM_cons, first, ok_bind, rest, error_bind]

namespace Envelope

variable {file : SecretKey .file} {fileKey : Bytes} {sender : EcKeyPair} {keys : List EcPublicKey}
  {e : Envelope}

structure Wraps (fileKey : Bytes) (sender : EcKeyPair) (key : EcPublicKey) (r : EccRecipient) :
    Prop where
  curve : r.curve = sender.curve
  recipient : r.recipient = key
  wrappedKey : ∃ wrapping, senderWrappingKey sender key = .ok wrapping ∧
    r.wrappedKey = Bytes.xor fileKey wrapping.bytes
  sender : r.sender = sender.publicKey

theorem Prepared.wraps (prepared : Prepared file sender keys e) :
    List.Forall₂ (Wraps file.bytes sender) keys e.recipients := by
  apply prepared.recipients.imp
  intro key r wrapped
  obtain ⟨_, wrapping, derived, rfl⟩ := wrapFor_eq_ok.mp wrapped
  exact ⟨rfl, rfl, ⟨wrapping, derived, rfl⟩, rfl⟩

theorem Prepared.onCurve (prepared : Prepared file sender keys e) :
    ∀ key ∈ keys, key.curve = sender.curve := by
  intro key member
  obtain ⟨i, inside, rfl⟩ := List.getElem_of_mem member
  have bound : i < e.recipients.length := by rwa [prepared.length_eq]
  exact (wrapFor_eq_ok.mp (prepared.recipients.get inside bound)).1

/-- Nothing but the arguments decides whether an envelope is prepared. -/
theorem prepare_isOk_iff :
    (∃ e, prepare fileKey sender keys = .ok e) ↔
      fileKey.length = keySize ∧ keys ≠ [] ∧ ∀ key ∈ keys, key.curve = sender.curve := by
  constructor
  · intro prepared
    obtain ⟨e, prepared⟩ := prepared
    obtain ⟨some, file, rfl, each⟩ := prepare_eq_ok.mp prepared
    exact ⟨file.size, some, each.onCurve⟩
  · intro suited
    obtain ⟨size, some, onCurve⟩ := suited
    exact exists_prepare size some onCurve

theorem prepareFor_of_ec {materials : List KeyMaterial}
    (ec : List.Forall₂ (fun m key => KeyMaterial.publicKey? m = some (.ec key)) materials keys) :
    prepareFor fileKey sender materials = prepare fileKey sender keys := by
  have read : materials.mapM KeyMaterial.ecKey = .ok keys :=
    mapM_eq_ok.mpr (ec.imp fun _ _ held => KeyMaterial.ecKey_eq_ok.mpr held)
  rw [prepareFor, read, ok_bind]

theorem prepareFor_of_foreign {front back : List KeyMaterial} {m : KeyMaterial}
    (ec : ∀ k ∈ front, ∃ key, k.publicKey? = some (.ec key))
    (foreign : ∀ key, m.publicKey? ≠ some (.ec key)) :
    ∃ what, prepareFor fileKey sender (front ++ m :: back) = .error (.foreignKey m.label what) := by
  obtain ⟨what, failed⟩ := KeyMaterial.ecKey_of_foreign foreign
  have stopped : (front ++ m :: back).mapM KeyMaterial.ecKey = .error (.foreignKey m.label what) := by
    apply mapM_eq_error _ failed
    intro k member
    obtain ⟨key, held⟩ := ec k member
    exact ⟨key, KeyMaterial.ecKey_eq_ok.mpr held⟩
  exact ⟨what, by rw [prepareFor, stopped, error_bind]⟩

/-- However it is delivered, a container is read up to the encrypted payload, which is left. -/
def ReadBack (e : Envelope) (file : SecretKey .file) (plaintext container : Bytes) : Prop :=
  ∃ encrypted : Bytes, encrypted.length = 12 + plaintext.length + 16 ∧
    ∀ minimum ≤ e.headerBytes.length, ∀ source : Source, source.readAll = .ok container →
      ∃ rest, Container.readHeader minimum source =
          .ok (⟨e.headerBytes, hmacSha256 file.headerMacKey.bytes e.headerBytes⟩,
            e.recipients.map .ecc, rest) ∧
        rest.readAll = .ok encrypted

/-- However it is delivered, a container is read up to its payload as far as its header can be. -/
theorem readHeader_container {minimum : Nat} {nonce plaintext : Bytes} {source : Source}
    (small : e.headerBytes.length < 2 ^ 32) (enough : minimum ≤ e.headerBytes.length)
    (delivered : source.readAll = .ok (e.container nonce plaintext)) :
    ∃ rest, Frame.read minimum source = .ok (e.frame, rest) ∧
      Container.readHeader minimum source =
        (Container.openHeader e.headerBytes >>= Container.recipients).map
          (fun list => (e.frame, list, rest)) ∧
      rest.readAll =
        .ok (Payload.encrypt e.contentKey e.frame.header e.frame.mac nonce plaintext) := by
  have front : e.frame.pieces.flatten <+: source.bytes := by
    rw [Source.bytes_of_readAll source _ delivered]
    exact List.prefix_append _ _
  obtain ⟨rest, got, split⟩ := Frame.read_of_front e.frame e.length_mac_frame small enough source front
  exact ⟨rest, got, Container.readHeader_eq got, Source.readAll_of_split (delivered.symm.trans split)⟩

theorem Prepared.readBack (prepared : Prepared file sender keys e) (few : keys.length ≤ maxRecords)
    {nonce : Bytes} (drawn : nonce.length = 12) (plaintext : Bytes) :
    e.ReadBack file plaintext (e.container nonce plaintext) := by
  have proper := prepared.proper
  rw [← prepared.length_eq] at few
  have small : e.headerBytes.length < 2 ^ 31 := length_headerBytes_lt proper few
  have code : e.frame.mac = hmacSha256 file.headerMacKey.bytes e.headerBytes := by
    rw [← prepared.macKey]
    rfl
  refine ⟨Payload.encrypt e.contentKey e.frame.header e.frame.mac nonce plaintext, ?_, ?_⟩
  · rw [Payload.length_encrypt, drawn]
    rfl
  · intro minimum enough source delivered
    obtain ⟨rest, _, read, left⟩ :=
      readHeader_container (Nat.lt_trans small (by decide)) enough delivered
    refine ⟨rest, ?_, left⟩
    rw [read, openHeader_headerBytes proper few, ok_bind, recipients_header proper, ← code]
    rfl

end Envelope

namespace Container

/--
An envelope is prepared if and only if the file key has its size and there are keys, all on the
sender's curve. A container that is written with it is read back, however it is delivered: one
record for each key in turn, the header and its authentication code as they were computed, and the
encrypted payload behind them. Recipients of other kinds come to the same if all of them have keys on
curves, and otherwise the first that has none is refused.
-/
theorem prepared_read_back (fileKey : Bytes) (sender : EcKeyPair) (keys : List EcPublicKey)
    (few : keys.length ≤ 499999) :
    ((∃ e, Envelope.prepare fileKey sender keys = .ok e) ↔
        fileKey.length = 32 ∧ keys ≠ [] ∧ ∀ key ∈ keys, key.curve = sender.curve) ∧
      (∀ e, Envelope.prepare fileKey sender keys = .ok e →
        e.header.toBytes? .curveLast = some e.headerBytes ∧
        Frame.minHeaderSize ≤ e.headerBytes.length ∧
        List.Forall₂ (Envelope.Wraps fileKey sender) keys e.recipients ∧
        ∃ file : SecretKey .file, file.bytes = fileKey ∧
          ∀ nonce payload sink, nonce.length = 12 →
            (∀ plaintext, payload.readAll = .ok plaintext → Aead.Fits plaintext → sink.Sound →
              ∃ left, e.encrypt nonce payload sink = (left, .ok ())) ∧
            ∀ left, e.encrypt nonce payload sink = (left, .ok ()) →
              ∃ plaintext container, payload.readAll = .ok plaintext ∧
                left.written = sink.written ++ container ∧ e.ReadBack file plaintext container) ∧
      (∀ materials, List.Forall₂ (fun m key => KeyMaterial.publicKey? m = some (.ec key)) materials
          keys →
        Envelope.prepareFor fileKey sender materials = Envelope.prepare fileKey sender keys) ∧
      ∀ front m back, (∀ k ∈ front, ∃ key, KeyMaterial.publicKey? k = some (.ec key)) →
        (∀ key, KeyMaterial.publicKey? m ≠ some (.ec key)) →
        ∃ e, Envelope.prepareFor fileKey sender (front ++ m :: back) = .error e ∧
          e.kind = .unsupportedRecipient ∧ ∃ what, e = .foreignKey m.label what := by
  refine ⟨Envelope.prepare_isOk_iff, ?_, fun _ => Envelope.prepareFor_of_ec, ?_⟩
  · intro e prepared
    obtain ⟨_, file, rfl, each⟩ := Envelope.prepare_eq_ok.mp prepared
    have fewRecipients : e.recipients.length ≤ Envelope.maxRecords := by rwa [each.length_eq]
    have small := Envelope.length_headerBytes_lt each.proper fewRecipients
    have reach := Envelope.four_le_length_headerBytes each.proper (by omega)
    have written : e.header.toBytes? .curveLast = some e.headerBytes := by
      rw [Header.toBytes?, Envelope.write?_header e]
    refine ⟨written, Nat.le_trans (by decide) reach, each.wraps, file, rfl, ?_⟩
    intro nonce payload sink drawn
    constructor
    · intro plaintext delivered fits sound
      obtain ⟨left, wrote, _⟩ := e.encrypt_eq_ok (by omega) nonce delivered fits sound
      exact ⟨left, wrote⟩
    · intro left wrote
      obtain ⟨_, plaintext, delivered, all⟩ := Envelope.container_of_encrypt wrote
      exact ⟨plaintext, _, delivered, all, each.readBack few drawn plaintext⟩
  · intro front m back ec foreign
    obtain ⟨what, stopped⟩ := Envelope.prepareFor_of_foreign ec foreign
    exact ⟨_, stopped, rfl, what, rfl⟩

/-- A sender that is its own recipient, twice, and a payload that comes in two pieces. -/
theorem twice_addressed_read_back :
    let sender := EcKeyPair.one .secp256r1
    [sender.publicKey, sender.publicKey].length ≤ 499999 ∧
      ∃ (e : Envelope) (file : SecretKey .file) (left : Sink) (container : Bytes),
        Envelope.prepare (List.replicate 32 7) sender [sender.publicKey, sender.publicKey] = .ok e ∧
        e.recipients.length = 2 ∧ file.bytes = List.replicate 32 7 ∧
        e.encrypt (List.replicate 12 9) [.chunk [1, 2], .chunk [3]] ⟨[.room 5], [8]⟩ =
          (left, .ok ()) ∧
        left.written = [8] ++ container ∧ e.ReadBack file [1, 2, 3] container := by
  intro sender
  have few : [sender.publicKey, sender.publicKey].length ≤ 499999 := by
    simp
  have onCurve : ∀ key ∈ [sender.publicKey, sender.publicKey], key.curve = sender.curve := by
    simp [EcKeyPair.curve]
  obtain ⟨suited, each, _⟩ := prepared_read_back (List.replicate 32 7) sender _ few
  obtain ⟨e, prepared⟩ := suited.mpr ⟨by simp, by simp, onCurve⟩
  obtain ⟨_, _, wraps, file, same, opens⟩ := each e prepared
  obtain ⟨writes, reads⟩ := opens (List.replicate 12 9) [.chunk [1, 2], .chunk [3]] ⟨[.room 5], [8]⟩
    (by simp)
  obtain ⟨left, wrote⟩ := writes [1, 2, 3] rfl (by decide) (by simp [Sink.Sound])
  obtain ⟨plaintext, container, delivered, all, back⟩ := reads left wrote
  cases delivered
  exact ⟨few, e, file, left, container, prepared, wraps.length_eq.symm, same, wrote, all, back⟩

end Container

end SealedContainer
