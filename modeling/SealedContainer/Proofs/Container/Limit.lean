import SealedContainer.Proofs.Container.ReadBack
import SealedContainer.Proofs.Container.Writing

/-!
How many recipients a container can have. What limits the writer is the length field of the header;
what limits the reader is the number of tables in it. Main statement: `written_opened_iff`. Between
the two limits a container is written and nobody can open it (`half_million_unread`).
-/

namespace SealedContainer

open Outcome

namespace Envelope

variable {fileKey : Bytes} {sender : EcKeyPair} {keys : List EcPublicKey} {e : Envelope}
  {nonce plaintext : Bytes} {source : Source}

section Limit

variable (proper : ∀ r ∈ e.recipients, r.Proper) (small : e.headerBytes.length < 2 ^ 32)
  (delivered : source.readAll = .ok (e.container nonce plaintext))

include proper small delivered

theorem readHeader_of_few (few : e.recipients.length ≤ maxRecords) :
    ∃ rest, Container.readHeader Frame.minHeaderSize source =
      .ok (e.frame, e.recipients.map .ecc, rest) := by
  have reach := four_le_length_headerBytes proper small
  have enough : Frame.minHeaderSize ≤ e.headerBytes.length := Nat.le_trans (by decide) reach
  obtain ⟨rest, _, read, _⟩ := readHeader_container small enough delivered
  refine ⟨rest, ?_⟩
  rw [read, openHeader_headerBytes proper few, ok_bind, recipients_header proper]
  rfl

/-- With too many records there is a frame, but its header is not opened, whoever tries. -/
theorem refused_of_many (many : maxRecords < e.recipients.length) :
    Container.readHeader Frame.minHeaderSize source = .error .malformedHeader ∧
      ∀ own, Container.decrypt Frame.minHeaderSize source own = .error .malformedHeader := by
  have reach := four_le_length_headerBytes proper small
  have enough : Frame.minHeaderSize ≤ e.headerBytes.length := Nat.le_trans (by decide) reach
  obtain ⟨rest, framed, read, _⟩ := readHeader_container small enough delivered
  have refused := openHeader_of_many proper many small
  constructor
  · rw [read, refused, error_bind]
    rfl
  · intro own
    have unopened : Container.openHeader e.frame.header = .error .malformedHeader := refused
    simp only [Container.decrypt_eq, framed, ok_bind, Container.authenticate, unopened, error_bind]

end Limit

/--
A container whose header is too large for the length field is refused before anything is written. Of
those that are written, the ones for up to 499999 recipients are read back, and no other: with more
recipients the encryption succeeds all the same, but the header is malformed to every reader.
-/
theorem written_opened_iff (prepared : prepare fileKey sender keys = .ok e) (nonce : Bytes)
    (payload : Source) (sink : Sink) :
    (2 ^ 32 ≤ e.headerBytes.length → ∃ refusal, e.encrypt nonce payload sink = (sink, .error refusal) ∧
      refusal.kind = .invalidArgument) ∧
    ∀ left, e.encrypt nonce payload sink = (left, .ok ()) →
      ∃ container, left.written = sink.written ++ container ∧
        ∀ source : Source, source.readAll = .ok container →
          (keys.length ≤ 499999 → ∃ rest, Container.readHeader Frame.minHeaderSize source =
            .ok (e.frame, e.recipients.map .ecc, rest)) ∧
          (499999 < keys.length →
            Container.readHeader Frame.minHeaderSize source = .error .malformedHeader ∧
            ∀ own, Container.decrypt Frame.minHeaderSize source own = .error .malformedHeader) := by
  obtain ⟨_, file, _, each⟩ := prepare_eq_ok.mp prepared
  have proper := each.proper
  constructor
  · intro large
    exact ⟨_, encrypt_of_large large, rfl⟩
  · intro left wrote
    obtain ⟨small, plaintext, _, all⟩ := container_of_encrypt wrote
    refine ⟨e.container nonce plaintext, all, ?_⟩
    intro source delivered
    rw [← each.length_eq]
    exact ⟨readHeader_of_few proper small delivered, refused_of_many proper small delivered⟩

/-- Two records for one key. -/
theorem twice_addressed_opened :
    let sender := EcKeyPair.one .secp256r1
    ∃ (e : Envelope) (left : Sink) (container : Bytes),
      prepare (List.replicate 32 7) sender [sender.publicKey, sender.publicKey] = .ok e ∧
      e.encrypt (List.replicate 12 9) [.chunk [1, 2, 3]] ⟨[.room 5], [8]⟩ = (left, .ok ()) ∧
      left.written = [8] ++ container ∧
      ∀ source : Source, source.readAll = .ok container →
        ∃ rest, Container.readHeader Frame.minHeaderSize source =
          .ok (e.frame, e.recipients.map .ecc, rest) := by
  intro sender
  have onCurve : ∀ key ∈ [sender.publicKey, sender.publicKey], key.curve = sender.curve := by
    simp [EcKeyPair.curve]
  have size : (List.replicate 32 (7 : UInt8)).length = keySize := rfl
  obtain ⟨e, prepared⟩ := exists_prepare size (List.cons_ne_nil _ _) onCurve
  obtain ⟨_, file, _, each⟩ := prepare_eq_ok.mp prepared
  have few : e.recipients.length ≤ maxRecords := by
    rw [each.length_eq]
    decide
  have small := length_headerBytes_lt each.proper few
  have delivered : Source.readAll [.chunk [1, 2, 3]] = .ok [1, 2, 3] := rfl
  have sound : Sink.Sound ⟨[.room 5], [8]⟩ := by simp [Sink.Sound]
  obtain ⟨left, wrote, _⟩ :=
    e.encrypt_eq_ok (by omega) (List.replicate 12 9) delivered (by decide) sound
  obtain ⟨container, all, opened⟩ := (written_opened_iff prepared _ _ _).2 left wrote
  exact ⟨e, left, container, prepared, wrote, all,
    fun source delivered => (opened source delivered).1 (by decide)⟩

/-- Half a million records for one key: the encryption succeeds, and the header is not read back. -/
theorem half_million_unread :
    let sender := EcKeyPair.one .secp256r1
    ∃ (e : Envelope) (left : Sink),
      prepare (List.replicate 32 7) sender (List.replicate 500000 sender.publicKey) = .ok e ∧
      e.encrypt (List.replicate 12 9) (.ofBytes [1, 2, 3]) ⟨[], []⟩ = (left, .ok ()) ∧
      Container.readHeader Frame.minHeaderSize (.ofBytes left.written) = .error .malformedHeader ∧
      Container.decrypt Frame.minHeaderSize (.ofBytes left.written) sender =
        .error .malformedHeader := by
  intro sender
  have onCurve : ∀ key ∈ List.replicate 500000 sender.publicKey, key.curve = sender.curve := by
    intro key member
    rw [List.eq_of_mem_replicate member]
    rfl
  have some : List.replicate 500000 sender.publicKey ≠ [] := by
    rw [ne_eq, List.replicate_eq_nil_iff]
    decide
  have size : (List.replicate 32 (7 : UInt8)).length = keySize := rfl
  obtain ⟨e, prepared⟩ := exists_prepare size some onCurve
  obtain ⟨_, file, _, each⟩ := prepare_eq_ok.mp prepared
  have count : e.recipients.length = 500000 := by rw [each.length_eq, List.length_replicate]
  have weight := weight_header each.proper
  have small : e.headerBytes.length < 2 ^ 32 := by
    have short := (headerBytes_spec each.proper).1
    omega
  have sound : Sink.Sound ⟨[], []⟩ := by simp [Sink.Sound]
  obtain ⟨left, wrote, all⟩ := e.encrypt_eq_ok small (List.replicate 12 9)
    (Source.readAll_ofBytes [1, 2, 3]) (by decide) sound
  have delivered : (Source.ofBytes left.written).readAll =
      .ok (e.container (List.replicate 12 9) [1, 2, 3]) := by
    rw [Source.readAll_ofBytes, all, List.nil_append]
  have many : maxRecords < e.recipients.length := by
    rw [count]
    decide
  obtain ⟨unread, closed⟩ := refused_of_many each.proper small delivered many
  exact ⟨e, left, prepared, wrote, unread, closed sender⟩

end Envelope

end SealedContainer
