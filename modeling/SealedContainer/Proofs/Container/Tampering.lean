import SealedContainer.Proofs.Container.RoundTrip
import SealedContainer.Proofs.Header.Change
import SealedContainer.Proofs.Key.Pair

/-!
Containers whose header was changed. A recipient gets a plaintext only if the old authentication
code happens to be right for the new header, under a key that comes from the new header. Which error
there is otherwise depends on the part that was changed.
-/

namespace SealedContainer

open Outcome

namespace EccRecipient

def keyRecord (r : EccRecipient) : Header.KeyRecord where
  detailsType := 1
  curve := Int8.ofInt r.curve.tag
  recipient := r.recipient.encode
  sender := r.sender.encode
  wrappedKey := r.wrappedKey
  keyMethod := 1

theorem marked_keyRecord (r : EccRecipient) : r.keyRecord.Marked := by
  refine ⟨by simp [keyRecord], ?_, by simp only [keyRecord]; decide⟩
  simp only [keyRecord]
  cases r.curve <;> decide

end EccRecipient

namespace Container

/-- The authentication code is right for the header, under the key of the file key that the header
holds for `own`. -/
def Coincides (own : EcKeyPair) (header mac : Bytes) : Prop :=
  ∃ h r file, openHeader header = .ok h ∧ findRecord h own = some r ∧
    recoverKey r own = .ok file ∧ file.headerMacKey.headerMac header = mac

theorem coincides_of_authenticate {own : EcKeyPair} {f : Frame} {file : SecretKey .file}
    (passed : authenticate f own = .ok file) : Coincides own f.header f.mac := by
  rcases authenticate_eq_ok.mp passed with ⟨h, r, _, opened, found, recovered, same, _⟩
  exact ⟨h, r, file, opened, found, recovered, same⟩

/-- Once there is a record for `own`, whatever is wrong counts as tampering until the authentication
code is found to be right. -/
theorem authenticate_of_found {own : EcKeyPair} {f : Frame} {h : Header} {r : Header.Record}
    (opened : openHeader f.header = .ok h) (found : findRecord h own = some r) :
    (∃ e, authenticate f own = .error e ∧ e.kind = .authentication) ∨
      Coincides own f.header f.mac := by
  cases recovered : recoverKey r own with
  | error e =>
      refine Or.inl ⟨e, ?_, kind_of_recoverKey_eq_error recovered⟩
      rw [authenticate, opened, ok_bind, found, orThrow, ok_bind, recovered, error_bind]
  | ok file =>
      by_cases same : file.headerMacKey.headerMac f.header = f.mac
      · exact Or.inr ⟨h, r, file, opened, found, recovered, same⟩
      · refine Or.inl ⟨.headerMac, ?_, rfl⟩
        rw [authenticate, opened, ok_bind, found, orThrow, ok_bind, recovered, ok_bind,
          SecretKey.verifyHeader, if_neg same]
        rfl

theorem authenticate_of_nobody {own : EcKeyPair} {f : Frame} {h : Header}
    (opened : openHeader f.header = .ok h) (nobody : ∀ r ∈ h.records.getD [], ¬ addressed own r) :
    authenticate f own = .error .noMatchingRecipient := by
  rw [authenticate, opened, ok_bind, findRecord_eq_none.mpr nobody]
  rfl

theorem addressed_seen (own : EcKeyPair) (k : Header.KeyRecord) :
    addressed own k.record.seen ↔
      (k.detailsType = 1 ∨ k.detailsType = 2) ∧ k.recipient = own.publicKey.encode := by
  by_cases known : k.detailsType = 1 ∨ k.detailsType = 2
  · simp [addressed, Header.Record.seen, Header.KeyRecord.record, Header.Record.ecc?, known]
  · simp [addressed, Header.Record.seen, Header.KeyRecord.record, Header.Record.ecc?, known]

end Container

namespace Envelope

variable {file : SecretKey .file} {sender own : EcKeyPair} {keys : List EcPublicKey} {e : Envelope}

def keyHeader (e : Envelope) : Header.KeyHeader where
  records := e.recipients.map EccRecipient.keyRecord
  payloadMethod := 1

theorem header_keyHeader (e : Envelope) : e.keyHeader.header = e.header := by
  simp only [Header.KeyHeader.header, keyHeader, header, List.map_map]
  rfl

theorem marked_keyHeader (e : Envelope) : e.keyHeader.Marked := by
  refine ⟨?_, by simp only [keyHeader]; decide⟩
  intro k member
  rcases List.mem_map.mp member with ⟨r, _, rfl⟩
  exact r.marked_keyRecord

theorem write?_keyHeader (e : Envelope) :
    Header.write? true .curveLast e.keyHeader.header = some e.headerBytes := by
  rw [← Header.KeyHeader.write?_of_marked .curveLast (marked_keyHeader e), header_keyHeader,
    write?_header]

theorem get?_keyHeader {i : Nat} {r : EccRecipient} (there : e.recipients[i]? = some r)
    (part : Header.RecordPart) :
    e.keyHeader.get? (.ofRecord i part) = some (r.keyRecord.get part) := by
  apply Header.KeyHeader.get?_ofRecord
  rw [keyHeader, List.getElem?_map, there, Option.map_some]

theorem Prepared.keys_eq (prepared : Prepared file sender keys e) :
    e.recipients.map EccRecipient.recipient = keys := by
  have same : List.Forall₂ (· = ·) keys (e.recipients.map EccRecipient.recipient) := by
    rw [List.forall₂_map_right_iff]
    refine prepared.recipients.imp ?_
    intro key r wrapped
    rcases wrapFor_eq_ok.mp wrapped with ⟨_, _, _, rfl⟩
    rfl
  rw [List.forall₂_eq_eq_eq] at same
  exact same.symm

/-- The header that stands in a buffer which differs from that of the envelope in these parts
only. -/
structure Altered (e : Envelope) (parts : List Header.Part) (buffer : Bytes)
    (s : Header.KeyHeader) : Prop where
  sizes : s.sizes = e.keyHeader.sizes
  kept : ∀ part, part ∉ parts → s.get? part = e.keyHeader.get? part
  content : ∀ part span x, Header.span? e.headerBytes part = some span →
    s.get? part = some x → span.of buffer = x
  written : Header.write? true .curveLast s.header = some buffer

theorem weight_keyHeader (proper : ∀ r ∈ e.recipients, r.Proper) :
    e.keyHeader.header.weight ≤ 100 + 434 * e.recipients.length := by
  rw [header_keyHeader]
  exact weight_header proper

theorem light_of_few (proper : ∀ r ∈ e.recipients, r.Proper)
    (few : e.recipients.length ≤ maxRecords) : e.keyHeader.header.weight < 2 ^ 31 := by
  have weight := weight_keyHeader proper
  unfold maxRecords at few
  omega

section Light

variable (light : e.keyHeader.header.weight < 2 ^ 31)

include light

theorem exists_span {part : Header.Part} {x : Bytes} (held : e.keyHeader.get? part = some x) :
    ∃ span, Header.span? e.headerBytes part = some span ∧ span.of e.headerBytes = x := by
  have put := write?_keyHeader e
  have found := Header.KeyHeader.span?_of_write? put light held
  rcases Header.KeyHeader.write?_set_of_only put light held found with ⟨content, _⟩
  exact ⟨_, found, content⟩

theorem exists_altered {parts : List Header.Part} {buffer : Bytes} {i : Nat} {r : EccRecipient}
    (there : e.recipients[i]? = some r) (single : Header.OnlyAt i parts)
    (confined : Header.Confined parts e.headerBytes buffer) : ∃ s, e.Altered parts buffer s := by
  have known : ∀ part ∈ parts, ∃ x, e.keyHeader.get? part = some x := by
    intro part member
    cases part with
    | payloadMethod => exact ⟨_, rfl⟩
    | ofRecord j part =>
        obtain rfl := single j part member
        exact ⟨_, get?_keyHeader there part⟩
  have put := write?_keyHeader e
  rcases Header.KeyHeader.exists_confined parts put light known confined with ⟨s, put', sized, kept⟩
  have same := Header.KeyHeader.weight_eq_of_sizes sized
  refine ⟨s, sized, kept, ?_, put'⟩
  intro part span x found held
  rcases Header.KeyHeader.get?_of_sizes sized.symm held with ⟨y, holds, _⟩
  rw [← Header.KeyHeader.span?_eq_of_sizes sized put put' light confined.1 holds] at found
  exact (Header.KeyHeader.write?_set_of_only put' (by omega) held found).1

theorem exists_changed {part : Header.Part} {b c : UInt8} {rest : Bytes}
    (held : e.keyHeader.get? part = some (b :: rest)) (other : c ≠ b) :
    ∃ span header, Header.span? e.headerBytes part = some span ∧
      Header.Confined [part] e.headerBytes header ∧ header ≠ e.headerBytes ∧
        (span.of header)[0]? = some c := by
  obtain ⟨span, here, content⟩ := exists_span light held
  obtain ⟨first, positive⟩ := span.getElem?_start content
  have inside := (List.getElem?_eq_some_iff.mp first).1
  have changed : (e.headerBytes.set span.start c)[span.start]? = some c := by
    rw [List.getElem?_set_self inside]
  refine ⟨span, e.headerBytes.set span.start c, here, ⟨List.length_set, ?_⟩, ?_, ?_⟩
  · intro j outside
    have free := outside _ (List.mem_singleton_self _) span here
    exact List.getElem?_set_ne (by unfold Header.Span.Covers at free; omega)
  · intro same
    rw [same, first] at changed
    exact other (Option.some.inj changed).symm
  · rw [Header.Span.of, List.getElem?_take_of_lt positive, List.getElem?_drop, Nat.add_zero,
      changed]

end Light

theorem exists_record (prepared : Prepared file sender keys e) {i : Nat} {key : EcPublicKey}
    (ours : keys[i]? = some key) :
    ∃ r, e.recipients[i]? = some r ∧ r.recipient = key := by
  rw [← prepared.keys_eq, List.getElem?_map, Option.map_eq_some_iff] at ours
  exact ours

theorem not_addressed_of_ne (prepared : Prepared file sender keys e) (distinct : keys.Nodup)
    {i j : Nat} (ours : keys[i]? = some own.publicKey) (other : i ≠ j) {r : EccRecipient}
    (there : e.recipients[j]? = some r) : ¬ Container.addressed own r.keyRecord.record.seen := by
  rw [Container.addressed_seen]
  rintro ⟨_, same⟩
  have key : keys[j]? = some own.publicKey := by
    rw [← prepared.keys_eq, List.getElem?_map, there]
    exact congrArg some (EcPublicKey.encode_injective same)
  have inside := (List.getElem?_eq_some_iff.mp ours).1
  exact other ((List.getElem?_inj inside distinct).mp (ours.trans key.symm))

namespace Altered

variable {parts : List Header.Part} {buffer : Bytes} {s : Header.KeyHeader}
  (altered : e.Altered parts buffer s)

include altered

theorem length_records : s.records.length = e.recipients.length := by
  have count := Header.KeyHeader.length_eq_of_sizes altered.sizes
  simpa only [keyHeader, List.length_map] using count

theorem record {j : Nat} {k : Header.KeyRecord} (there : s.records[j]? = some k) :
    ∃ r, e.recipients[j]? = some r ∧
      ∀ part, .ofRecord j part ∉ parts → k.get part = r.keyRecord.get part := by
  have bound := (List.getElem?_eq_some_iff.mp there).1
  have count := altered.length_records
  have inside : j < e.recipients.length := by omega
  refine ⟨e.recipients[j], List.getElem?_eq_getElem inside, ?_⟩
  intro part untouched
  have same := altered.kept _ untouched
  simp only [Header.KeyHeader.get?, keyHeader, there, List.getElem?_map,
    List.getElem?_eq_getElem inside, Option.map_some, Option.some.injEq] at same
  exact same

theorem detailsType_of_kept (untouched : ∀ j, .ofRecord j .detailsType ∉ parts) :
    ∀ k ∈ s.records, k.detailsType = 1 := by
  intro k member
  rcases List.mem_iff_getElem?.mp member with ⟨j, there⟩
  rcases altered.record there with ⟨r, _, same⟩
  have kept : [k.detailsType] = [1] := same .detailsType (untouched j)
  exact List.singleton_inj.mp kept

theorem detailsType_ne_two_of_kept (untouched : ∀ j, .ofRecord j .detailsType ∉ parts) :
    ∀ k ∈ s.records, k.detailsType ≠ 2 := by
  intro k member two
  rw [altered.detailsType_of_kept untouched k member] at two
  cases two

section Opened

variable (light : e.keyHeader.header.weight < 2 ^ 31)

include light

theorem weight_le : s.header.weight ≤ Header.Verify.maxSize := by
  rw [Header.KeyHeader.weight_eq_of_sizes altered.sizes]
  exact Nat.le_of_lt light

theorem opened (few : e.recipients.length ≤ maxRecords)
    (others : ∀ k ∈ s.records, k.detailsType ≠ 2) :
    Container.openHeader buffer = .ok s.header.seen := by
  have count := altered.length_records
  unfold maxRecords at few
  rw [Container.openHeader_eq_ok]
  apply Header.KeyHeader.ofBytes?_header altered.written (altered.weight_le light) others
  unfold Header.Verify.maxTables
  omega

theorem opened_of_kept (few : e.recipients.length ≤ maxRecords)
    (untouched : ∀ j, .ofRecord j .detailsType ∉ parts) :
    Container.openHeader buffer = .ok s.header.seen := by
  apply altered.opened light few
  exact altered.detailsType_ne_two_of_kept untouched

/-- With too many records it is refused, like the header that was written. -/
theorem refused_of_kept (many : maxRecords < e.recipients.length)
    (untouched : ∀ j, .ofRecord j .detailsType ∉ parts) :
    Container.openHeader buffer = .error .malformedHeader := by
  have tables := Header.KeyHeader.tables_eq (altered.detailsType_of_kept untouched)
  have others := altered.detailsType_ne_two_of_kept untouched
  unfold maxRecords at many
  have none := Header.KeyHeader.ofBytes?_header_of_many altered.written (altered.weight_le light)
    others (by rw [tables, altered.length_records, Header.Verify.maxTables]; omega)
  rw [Container.openHeader, none]
  rfl

end Opened

/-- If the changed record is no longer that of the recipient, then there is none. -/
theorem nobody (prepared : Prepared file sender keys e) (distinct : keys.Nodup) {i : Nat}
    (ours : keys[i]? = some own.publicKey)
    (single : Header.OnlyAt i parts)
    (gone : ∀ k, s.records[i]? = some k → ¬ Container.addressed own k.record.seen) :
    ∀ r ∈ s.header.seen.records.getD [], ¬ Container.addressed own r := by
  intro r member
  simp only [Header.seen, Header.KeyHeader.header, Option.map_some, Option.getD_some,
    List.map_map] at member
  rcases List.mem_map.mp member with ⟨k, listed, rfl⟩
  rcases List.mem_iff_getElem?.mp listed with ⟨j, there⟩
  by_cases here : j = i
  · subst here
    exact gone k there
  · rcases altered.record there with ⟨r, recipient, same⟩
    have key : k.recipient = r.keyRecord.recipient := same .recipient fun member =>
      here (single j _ member)
    have other := not_addressed_of_ne prepared distinct ours (Ne.symm here) recipient
    rw [Container.addressed_seen] at other
    intro ours
    apply other
    refine ⟨Or.inl rfl, ?_⟩
    rw [← key]
    exact ((Container.addressed_seen own k).mp ours).2

theorem exists_findRecord {i : Nat} {r : EccRecipient} (there : e.recipients[i]? = some r)
    (ours : r.recipient = own.publicKey) (recipient : .ofRecord i .recipient ∉ parts)
    (detailsType : .ofRecord i .detailsType ∉ parts) :
    ∃ found, Container.findRecord s.header.seen own = some found := by
  have inside : i < s.records.length := by
    rw [altered.length_records]
    exact (List.getElem?_eq_some_iff.mp there).1
  rcases altered.record (List.getElem?_eq_getElem inside) with ⟨r', there', same⟩
  rw [there, Option.some.injEq] at there'
  subst there'
  have kept : Container.addressed own s.records[i].record.seen := by
    rw [Container.addressed_seen]
    have type : [s.records[i].detailsType] = [1] := same .detailsType detailsType
    have key : s.records[i].recipient = r.recipient.encode := same .recipient recipient
    exact ⟨Or.inl (List.singleton_inj.mp type), by rw [key, ours]⟩
  cases found : Container.findRecord s.header.seen own with
  | some r => exact ⟨r, rfl⟩
  | none =>
      refine absurd kept (Container.findRecord_eq_none.mp found _ ?_)
      simp only [Header.seen, Header.KeyHeader.header, Option.map_some, Option.getD_some,
        List.map_map]
      exact List.mem_map_of_mem (List.getElem_mem inside)

end Altered

end Envelope

namespace Container

def replaceHeader (container header : Bytes) : Bytes :=
  container.take Frame.preludeSize ++ header ++ container.drop (Frame.preludeSize + header.length)

/-- A stream delivers the container with another header of the same length. -/
structure Tampered (e : Envelope) (container header : Bytes) (source : Source) : Prop where
  size : header.length = e.headerBytes.length
  changed : header ≠ e.headerBytes
  delivered : source.readAll = .ok (replaceHeader container header)

/-- The parts that a record is unwrapped with, and that say what the payload is encrypted with. -/
def unwrapParts (i : Nat) : List Header.Part :=
  [.ofRecord i .sender, .ofRecord i .wrappedKey, .ofRecord i .curve, .ofRecord i .keyMethod,
    .payloadMethod]

/-- What has to become of a header in which some parts were changed, if `own` belongs to the record
at `i`. -/
structure Detected (e : Envelope) (own : EcKeyPair) (i : Nat) (header : Bytes)
    (result : Except CryptoError Bytes) : Prop where
  recipient : Header.Confined [.ofRecord i .recipient] e.headerBytes header →
    result = .error .noMatchingRecipient
  detailsType : Header.Confined [.ofRecord i .detailsType] e.headerBytes header →
    (∀ span, Header.span? e.headerBytes (.ofRecord i .detailsType) = some span →
      span.of header ≠ [1] ∧ span.of header ≠ [2]) → result = .error .noMatchingRecipient
  others : Header.Confined (unwrapParts i) e.headerBytes header →
    (∃ err, result = .error err ∧ err.kind = .authentication) ∨ Coincides own header e.frame.mac

theorem replaceHeader_container (e : Envelope) (nonce plaintext : Bytes) {header : Bytes}
    (size : header.length = e.headerBytes.length) :
    replaceHeader (e.container nonce plaintext) header =
      (Frame.mk header e.frame.mac).pieces.flatten ++
        Payload.encrypt e.contentKey e.frame.header e.frame.mac nonce plaintext := by
  have prelude : (Frame.prelude e.headerBytes.length).length = Frame.preludeSize :=
    Frame.length_prelude _
  have same : e.frame.header = e.headerBytes := rfl
  simp only [replaceHeader, Envelope.container, Frame.flatten_pieces, size, same,
    List.append_assoc]
  rw [← prelude, List.take_left, ← List.drop_drop, List.drop_left, List.drop_left]

section Tampered

variable {e : Envelope} {own : EcKeyPair} {nonce plaintext header : Bytes} {source : Source}
  (small : e.headerBytes.length < 2 ^ 32) (four : 4 ≤ e.headerBytes.length)
  (tampered : Tampered e (e.container nonce plaintext) header source)

include small four tampered

theorem decrypt_of_tampered (own : EcKeyPair) :
    ∃ rest : Source, decrypt Frame.minHeaderSize source own =
      (authenticate ⟨header, e.frame.mac⟩ own >>= fun file =>
        Frame.reading rest.readAll >>= Payload.decrypt file.contentKey header e.frame.mac) := by
  have front : (Frame.mk header e.frame.mac).pieces.flatten <+: source.bytes := by
    rw [Source.bytes_of_readAll source _ tampered.delivered,
      replaceHeader_container e nonce plaintext tampered.size]
    exact List.prefix_append _ _
  have size := tampered.size
  have enough : Frame.minHeaderSize ≤ header.length := by
    change 1 ≤ header.length
    omega
  obtain ⟨rest, _, decided⟩ := decrypt_of_frame ⟨header, e.frame.mac⟩ e.length_mac_frame
    (show header.length < 2 ^ 32 by omega) enough own source front
  exact ⟨rest, decided⟩

theorem decrypt_of_authenticate {err : CryptoError}
    (failed : authenticate ⟨header, e.frame.mac⟩ own = .error err) :
    decrypt Frame.minHeaderSize source own = .error err := by
  rcases decrypt_of_tampered small four tampered own with ⟨rest, decided⟩
  rw [decided, failed, error_bind]

theorem coincides_of_decrypt {result : Bytes}
    (opened : decrypt Frame.minHeaderSize source own = .ok result) :
    Coincides own header e.frame.mac := by
  rcases decrypt_of_tampered small four tampered own with ⟨rest, decided⟩
  rw [decided, bind_eq_ok] at opened
  rcases opened with ⟨file, passed, _⟩
  exact coincides_of_authenticate (f := ⟨header, e.frame.mac⟩) passed

theorem expected_of_found {h : Header} {r : Header.Record} (opened : openHeader header = .ok h)
    (found : findRecord h own = some r) :
    (∃ err, decrypt Frame.minHeaderSize source own = .error err ∧ err.kind = .authentication) ∨
      Coincides own header e.frame.mac := by
  have passed : openHeader (Frame.mk header e.frame.mac).header = .ok h := opened
  rcases authenticate_of_found passed found with ⟨err, failed, kind⟩ | coincides
  · exact Or.inl ⟨err, decrypt_of_authenticate small four tampered failed, kind⟩
  · exact Or.inr coincides

end Tampered

section Parts

variable {file : SecretKey .file} {sender own : EcKeyPair} {keys : List EcPublicKey} {e : Envelope}
  {nonce plaintext header : Bytes} {source : Source} {i : Nat}
  (small : e.headerBytes.length < 2 ^ 32) (four : 4 ≤ e.headerBytes.length)
  (tampered : Tampered e (e.container nonce plaintext) header source)
  (each : Envelope.Prepared file sender keys e) (distinct : keys.Nodup)
  (ours : keys[i]? = some own.publicKey) (few : e.recipients.length ≤ Envelope.maxRecords)

include small four tampered each distinct ours

theorem decrypt_of_gone {parts : List Header.Part} {s : Header.KeyHeader}
    (altered : e.Altered parts header s) (opened : openHeader header = .ok s.header.seen)
    (single : Header.OnlyAt i parts)
    (gone : ∀ k, s.records[i]? = some k → ¬ addressed own k.record.seen) :
    decrypt Frame.minHeaderSize source own = .error .noMatchingRecipient := by
  have nobody := altered.nobody each distinct ours single gone
  have passed : openHeader (Frame.mk header e.frame.mac).header = .ok s.header.seen := opened
  exact decrypt_of_authenticate small four tampered (authenticate_of_nobody passed nobody)

include few

theorem decrypt_of_recipient
    (confined : Header.Confined [.ofRecord i .recipient] e.headerBytes header) :
    decrypt Frame.minHeaderSize source own = .error .noMatchingRecipient := by
  have light := Envelope.light_of_few each.proper few
  rcases Envelope.exists_record each ours with ⟨r, there, key⟩
  have held := Envelope.get?_keyHeader there .recipient
  rcases Envelope.exists_span light held with ⟨span, found, content⟩
  have single : Header.OnlyAt i [.ofRecord i .recipient] := by simp [Header.OnlyAt]
  rcases Envelope.exists_altered light there single confined with ⟨s, altered⟩
  apply decrypt_of_gone small four tampered each distinct ours altered _ single
  · -- A record that still had the key would be the one that was written, and nothing had changed.
    intro k changed mine
    rcases (addressed_seen own k).mp mine with ⟨_, same⟩
    have now : span.of header = k.recipient :=
      altered.content _ span _ found (Header.KeyHeader.get?_ofRecord changed .recipient)
    apply tampered.changed
    apply (confined.only found).eq_of_same
    rw [now, content, same, ← key]
    rfl
  · exact altered.opened_of_kept light few (by simp)

theorem decrypt_of_detailsType
    (confined : Header.Confined [.ofRecord i .detailsType] e.headerBytes header)
    (unknown : ∀ span, Header.span? e.headerBytes (.ofRecord i .detailsType) = some span →
      span.of header ≠ [1] ∧ span.of header ≠ [2]) :
    decrypt Frame.minHeaderSize source own = .error .noMatchingRecipient := by
  have light := Envelope.light_of_few each.proper few
  rcases Envelope.exists_record each ours with ⟨r, there, _⟩
  have held := Envelope.get?_keyHeader there .detailsType
  rcases Envelope.exists_span light held with ⟨span, found, _⟩
  have single : Header.OnlyAt i [.ofRecord i .detailsType] := by simp [Header.OnlyAt]
  rcases Envelope.exists_altered light there single confined with ⟨s, altered⟩
  rcases unknown span found with ⟨notOne, notTwo⟩
  have now : ∀ k, s.records[i]? = some k → span.of header = [k.detailsType] := by
    intro k changed
    exact altered.content _ span _ found (Header.KeyHeader.get?_ofRecord changed .detailsType)
  apply decrypt_of_gone small four tampered each distinct ours altered _ single
  · intro k changed mine
    rcases (addressed_seen own k).mp mine with ⟨known, _⟩
    rcases known with one | two
    · apply notOne
      rw [now k changed, one]
    · apply notTwo
      rw [now k changed, two]
  · apply altered.opened light few
    intro k member two
    rcases List.mem_iff_getElem?.mp member with ⟨j, listed⟩
    by_cases here : j = i
    · subst here
      apply notTwo
      rw [now k listed, two]
    · rcases altered.record listed with ⟨other, _, same⟩
      have kept : [k.detailsType] = [1] := same .detailsType (by simp [here])
      rw [two] at kept
      cases kept

omit distinct

theorem expected_of_unwrapParts (confined : Header.Confined (unwrapParts i) e.headerBytes header) :
    (∃ err, decrypt Frame.minHeaderSize source own = .error err ∧ err.kind = .authentication) ∨
      Coincides own header e.frame.mac := by
  have light := Envelope.light_of_few each.proper few
  rcases Envelope.exists_record each ours with ⟨r, there, key⟩
  have single : Header.OnlyAt i (unwrapParts i) := by
    intro j part member
    simp [unwrapParts] at member
    omega
  rcases Envelope.exists_altered light there single confined with ⟨s, altered⟩
  have opened := altered.opened_of_kept light few (by simp [unwrapParts])
  obtain ⟨found, first⟩ := altered.exists_findRecord there key (by simp [unwrapParts])
    (by simp [unwrapParts])
  exact expected_of_found small four tampered opened first

end Parts

/-- A recipient notices every change of the header. It gets a plaintext only if the authentication
code happens to be right for the new header; and if the change was confined to some parts, these
decide on the error. With too many recipients not even the header as it was written is read. -/
theorem changed_header_detected (fileKey : Bytes) (sender own : EcKeyPair)
    (keys : List EcPublicKey) (e : Envelope)
    (prepared : Envelope.prepare fileKey sender keys = .ok e) (distinct : keys.Nodup)
    (i : Nat) (ours : keys[i]? = some own.publicKey) (nonce : Bytes) (payload : Source)
    (sink left : Sink) (wrote : e.encrypt nonce payload sink = (left, .ok ())) (container : Bytes)
    (all : left.written = sink.written ++ container) :
    (∀ header source plaintext, Tampered e container header source →
      decrypt Frame.minHeaderSize source own = .ok plaintext →
        Coincides own header e.frame.mac) ∧
    (keys.length ≤ 499999 →
      (∀ part content, e.keyHeader.get? part = some content →
        ∃ span, Header.span? e.headerBytes part = some span ∧ span.of e.headerBytes = content) ∧
      ∀ header source, Tampered e container header source →
        Detected e own i header (decrypt Frame.minHeaderSize source own)) ∧
    (499999 < keys.length → ∀ source : Source, source.readAll = .ok container →
      decrypt Frame.minHeaderSize source own = .error .malformedHeader) := by
  rcases Envelope.prepare_eq_ok.mp prepared with ⟨_, file, _, each⟩
  have proper := each.proper
  have count := each.length_eq
  rcases e.container_of_encrypt wrote with ⟨small, plaintext, _, written⟩
  have four := Envelope.four_le_length_headerBytes proper small
  obtain rfl : container = e.container nonce plaintext :=
    List.append_cancel_left (all.symm.trans written)
  refine ⟨?_, ?_, ?_⟩
  · intro header source result tampered opened
    exact coincides_of_decrypt small four tampered opened
  · intro few
    rw [← count] at few
    constructor
    · intro part content held
      exact Envelope.exists_span (Envelope.light_of_few proper few) held
    · intro header source tampered
      refine ⟨?_, ?_, ?_⟩
      · exact decrypt_of_recipient small four tampered each distinct ours few
      · exact decrypt_of_detailsType small four tampered each distinct ours few
      · exact expected_of_unwrapParts small four tampered each ours few
  · intro many source delivered
    rw [← count] at many
    have refused : openHeader e.frame.header = .error .malformedHeader :=
      Envelope.openHeader_of_many proper many small
    have front : e.frame.pieces.flatten <+: source.bytes := by
      rw [Source.bytes_of_readAll source _ delivered]
      exact List.prefix_append _ _
    have enough : Frame.minHeaderSize ≤ e.frame.header.length := by
      change 1 ≤ e.headerBytes.length
      omega
    rcases decrypt_of_frame e.frame e.length_mac_frame small enough own source front with ⟨_, _,
      decided⟩
    rw [decided, authenticate, refused]
    rfl

/-- A container whose only record is changed to one of an unknown type. -/
theorem nobody_addressed_in_unknown_record :
    ∃ (e : Envelope) (left : Sink) (header : Bytes),
      Envelope.prepare (List.replicate 32 7) (.one .secp256r1)
        [(EcKeyPair.one .secp256r1).publicKey] = .ok e ∧
      e.encrypt (List.replicate 12 9) [.chunk [1, 2, 3]] ⟨[], []⟩ = (left, .ok ()) ∧
      header ≠ e.headerBytes ∧
      decrypt Frame.minHeaderSize (Source.ofBytes (replaceHeader left.written header))
        (.one .secp256r1) = .error .noMatchingRecipient := by
  obtain ⟨e, prepared⟩ := @Envelope.exists_prepare (.one .secp256r1)
    [(EcKeyPair.one .secp256r1).publicKey] (List.replicate 32 7) (by decide) (by simp) (by
      simp
      rfl)
  rcases Envelope.prepare_eq_ok.mp prepared with ⟨_, file, _, each⟩
  have small := Envelope.length_headerBytes_lt each.proper (by rw [each.length_eq]; decide)
  obtain ⟨left, wrote, all⟩ := @Envelope.encrypt_eq_ok e (by omega) (List.replicate 12 9)
    [.chunk [1, 2, 3]] [1, 2, 3] rfl (by decide) ⟨[], []⟩ (by simp [Sink.Sound])
  obtain ⟨_, detected, _⟩ := changed_header_detected _ _ (.one .secp256r1) _ e prepared
    (by simp) 0 rfl _ _ _ left wrote left.written rfl
  obtain ⟨_, kinds⟩ := detected (by decide)
  obtain ⟨r, there, _⟩ := Envelope.exists_record each (i := 0) rfl
  have held : e.keyHeader.get? (.ofRecord 0 .detailsType) = some [1] :=
    Envelope.get?_keyHeader there .detailsType
  have light := Envelope.light_of_few each.proper (by rw [each.length_eq]; decide)
  obtain ⟨span, header, here, confined, other, changed⟩ :=
    Envelope.exists_changed (c := 9) light held (by decide)
  refine ⟨e, left, header, prepared, wrote, other, ?_⟩
  have tampered : Tampered e left.written header _ := ⟨confined.1, other, Source.readAll_ofBytes _⟩
  apply (kinds _ _ tampered).detailsType confined
  intro span' here'
  rw [here, Option.some.injEq] at here'
  subst here'
  constructor
  · intro same
    rw [same] at changed
    cases changed
  · intro same
    rw [same] at changed
    cases changed

/-- With half a million different recipients nobody can read the header as it was written. Then a
change of the first key does not lead to a header without that recipient: it is malformed. -/
theorem half_million_changed_unread :
    let keys := EcPublicKey.multiples .secp256r1 500000
    keys.length = 500000 ∧ keys.Nodup ∧ keys[0]? = some (EcKeyPair.one .secp256r1).publicKey ∧
      ∃ (e : Envelope) (left : Sink) (header : Bytes) (source : Source),
        Envelope.prepare (List.replicate 32 7) (.one .secp256r1) keys = .ok e ∧
        e.encrypt (List.replicate 12 9) (.ofBytes [1, 2, 3]) ⟨[], []⟩ = (left, .ok ()) ∧
        Tampered e left.written header source ∧
        Header.Confined [.ofRecord 0 .recipient] e.headerBytes header ∧
        decrypt Frame.minHeaderSize source (.one .secp256r1) = .error .malformedHeader := by
  intro keys
  obtain ⟨size, distinct⟩ : keys.length = 500000 ∧ keys.Nodup :=
    EcPublicKey.multiples_spec (by decide)
  have ours : keys[0]? = some (EcKeyPair.one .secp256r1).publicKey :=
    EcPublicKey.getElem?_multiples (by decide) (EcKeyPair.one .secp256r1).isMultiple
  have onCurve : ∀ key ∈ keys, key.curve = (EcKeyPair.one .secp256r1).curve := by
    intro key member
    obtain ⟨n, _, _, found⟩ := EcPublicKey.mem_multiples.mp member
    exact EcKeyPair.curve_of_ofScalar? found
  have nonempty : keys ≠ [] := List.ne_nil_of_length_pos (by omega)
  have keySized : (List.replicate 32 (7 : UInt8)).length = keySize := rfl
  obtain ⟨e, prepared⟩ := Envelope.exists_prepare keySized nonempty onCurve
  obtain ⟨_, file, _, each⟩ := Envelope.prepare_eq_ok.mp prepared
  have count : e.recipients.length = 500000 := each.length_eq.trans size
  have weight := Envelope.weight_keyHeader each.proper
  have light : e.keyHeader.header.weight < 2 ^ 31 := by omega
  have small : e.headerBytes.length < 2 ^ 32 := by
    have short := (Envelope.headerBytes_spec each.proper).1
    rw [← e.header_keyHeader] at short
    omega
  have four := Envelope.four_le_length_headerBytes each.proper small
  obtain ⟨left, wrote, all⟩ := e.encrypt_eq_ok small (List.replicate 12 9)
    (Source.readAll_ofBytes [1, 2, 3]) (by decide) (show Sink.Sound ⟨[], []⟩ by simp [Sink.Sound])
  obtain ⟨r, there, _⟩ := Envelope.exists_record each ours
  obtain ⟨rest, begins⟩ : ∃ rest, r.recipient.encode = 4 :: rest := ⟨_, rfl⟩
  have held : e.keyHeader.get? (.ofRecord 0 .recipient) = some (4 :: rest) := by
    rw [← begins]
    exact Envelope.get?_keyHeader there .recipient
  obtain ⟨_, header, _, confined, other, _⟩ := Envelope.exists_changed (c := 9) light held (by decide)
  have whole : left.written = e.container (List.replicate 12 9) [1, 2, 3] := by
    rw [all, List.nil_append]
  have tampered : Tampered e left.written header (.ofBytes (replaceHeader left.written header)) :=
    ⟨confined.1, other, Source.readAll_ofBytes _⟩
  refine ⟨size, distinct, ours, e, left, header, _, prepared, wrote, tampered, confined, ?_⟩
  have single : Header.OnlyAt 0 [.ofRecord 0 .recipient] := by simp [Header.OnlyAt]
  obtain ⟨s, altered⟩ := Envelope.exists_altered light there single confined
  have refused := altered.refused_of_kept light (by rw [count]; decide) (by simp)
  rw [whole] at tampered ⊢
  apply decrypt_of_authenticate small four tampered
  rw [authenticate, refused, error_bind]

end Container

end SealedContainer
