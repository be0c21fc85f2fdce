import SealedContainer.Proofs.Container.Acceptance
import SealedContainer.Proofs.Header.Verified
import SealedContainer.Proofs.Header.Written

/-!
Envelopes. Preparing one wraps the file key for each recipient in turn, and its header is read back
as long as the tables of all records are within the limit; with more records it is always refused.
-/

namespace SealedContainer

open Outcome

/-- A recipient as it is prepared: the keys are on one curve and the wrapped key has its size. -/
structure EccRecipient.Proper (r : EccRecipient) : Prop where
  recipient : r.recipient.curve = r.curve
  sender : r.sender.curve = r.curve
  wrappedKey : r.wrappedKey.length = keySize

namespace EccRecipient

variable {r : EccRecipient}

theorem storable_record (zeros : Bool) (r : EccRecipient) : r.record.Storable zeros := by
  refine ⟨⟨rfl, ?_⟩, rfl⟩
  rintro d ⟨⟩
  exact ⟨rfl, rfl⟩

theorem fitting_record (r : EccRecipient) : r.record.Fitting := by
  constructor
  · intro _ d _
    rfl
  · intro two
    exact absurd two (by decide : (1 : UInt8) ≠ 2)

theorem seen_record (r : EccRecipient) : r.record.seen = r.record := rfl

theorem tables_record (r : EccRecipient) : r.record.tables = 2 := rfl

theorem weight_record (proper : r.Proper) : r.record.weight ≤ 426 := by
  have point : ∀ curve : Curve, curve.pointSize ≤ 97 := by
    intro curve
    cases curve <;> decide
  have recipient := point r.recipient.curve
  have sender := point r.sender.curve
  have key := proper.wrappedKey
  simp only [Header.Record.weight, record, Option.map_some, Header.Details.weight, Option.getD_some,
    EcPublicKey.length_encode]
  rw [key, keySize]
  omega

theorem recipient_record (proper : r.Proper) : Container.recipient r.record = .ok (.ecc r) := by
  rw [Container.recipient_eq_ok]
  refine ⟨rfl, r.wrappedKey, rfl, proper.wrappedKey, Or.inl ⟨rfl, _, r, rfl, ?_, rfl⟩⟩
  rw [Container.eccRecipient_eq_ok]
  have tag : Curve.ofTag? (Int8.ofInt r.curve.tag).toInt = some r.curve := by
    cases r.curve <;> rfl
  have recipient := EcPublicKey.decode_encode r.recipient
  have sender := EcPublicKey.decode_encode r.sender
  rw [proper.recipient] at recipient
  rw [proper.sender] at sender
  exact ⟨tag, rfl, _, _, rfl, rfl, recipient, sender⟩

theorem addressed_record (own : EcKeyPair) (r : EccRecipient) :
    Container.addressed own r.record ↔ r.recipient = own.publicKey := by
  constructor
  · intro matched
    exact EcPublicKey.encode_injective (Option.some.inj matched)
  · intro same
    change some r.recipient.encode = some own.publicKey.encode
    rw [same]

end EccRecipient

namespace Envelope

variable {file : SecretKey .file} {sender : EcKeyPair} {keys : List EcPublicKey} {e : Envelope}

theorem wrapFor_eq_ok {key : EcPublicKey} {r : EccRecipient} :
    wrapFor file sender key = .ok r ↔
      key.curve = sender.curve ∧ ∃ wrapping, senderWrappingKey sender key = .ok wrapping ∧
        r = ⟨sender.curve, key, sender.publicKey, file.wrap wrapping⟩ := by
  unfold wrapFor
  by_cases same : key.curve = sender.curve
  · simp [same, bind_eq_ok, @eq_comm _ r]
  · simp [same]

theorem proper_of_wrapFor {key : EcPublicKey} {r : EccRecipient}
    (wrapped : wrapFor file sender key = .ok r) : r.Proper := by
  rcases wrapFor_eq_ok.mp wrapped with ⟨same, wrapping, _, rfl⟩
  exact ⟨same, rfl, SecretKey.length_wrap file wrapping⟩

/-- An envelope with one record for each key, in the order of the keys. -/
structure Prepared (file : SecretKey .file) (sender : EcKeyPair) (keys : List EcPublicKey)
    (e : Envelope) : Prop where
  recipients : List.Forall₂ (fun key r => wrapFor file sender key = .ok r) keys e.recipients
  macKey : e.macKey = file.headerMacKey
  contentKey : e.contentKey = file.contentKey

theorem prepare_eq_ok {fileKey : Bytes} :
    prepare fileKey sender keys = .ok e ↔
      keys ≠ [] ∧ ∃ file : SecretKey .file, file.bytes = fileKey ∧ Prepared file sender keys e := by
  unfold prepare
  by_cases size : fileKey.length = keySize
  · rw [dif_pos size]
    by_cases none : keys = []
    · simp [none]
    · rw [if_neg none]
      simp only [bind_eq_ok, pure_eq_ok, Except.ok.injEq, mapM_eq_ok]
      constructor
      · rintro ⟨recipients, each, rfl⟩
        exact ⟨none, ⟨fileKey, size⟩, rfl, each, rfl, rfl⟩
      · rintro ⟨_, ⟨bytes, size'⟩, rfl, each, mac, content⟩
        refine ⟨e.recipients, each, ?_⟩
        cases e
        simp only at mac content
        rw [mac, content]
  · rw [dif_neg size]
    constructor
    · intro impossible
      cases impossible
    · rintro ⟨_, file, rfl, _⟩
      exact absurd file.size size

theorem exists_prepare {fileKey : Bytes} (size : fileKey.length = keySize) (some : keys ≠ [])
    (onCurve : ∀ key ∈ keys, key.curve = sender.curve) :
    ∃ e, prepare fileKey sender keys = .ok e := by
  let file : SecretKey .file := ⟨fileKey, size⟩
  have each : ∀ key ∈ keys, ∃ r, wrapFor file sender key = .ok r := by
    intro key member
    rcases senderWrappingKey_eq_ok sender key (onCurve key member) with ⟨wrapping, derived⟩
    exact ⟨_, wrapFor_eq_ok.mpr ⟨onCurve key member, wrapping, derived, rfl⟩⟩
  obtain ⟨recipients, all⟩ : ∃ recipients,
      List.Forall₂ (fun key r => wrapFor file sender key = .ok r) keys recipients := by
    clear some onCurve
    induction keys with
    | nil => exact ⟨[], .nil⟩
    | cons key keys ih =>
        rcases each key (List.mem_cons_self ..) with ⟨r, first⟩
        rcases ih fun k member => each k (List.mem_cons_of_mem _ member) with ⟨recipients, rest⟩
        exact ⟨r :: recipients, .cons first rest⟩
  exact ⟨⟨recipients, file.headerMacKey, file.contentKey⟩,
    prepare_eq_ok.mpr ⟨some, file, rfl, all, rfl, rfl⟩⟩

theorem Prepared.length_eq (prepared : Prepared file sender keys e) :
    e.recipients.length = keys.length :=
  prepared.recipients.length_eq.symm

theorem Prepared.proper (prepared : Prepared file sender keys e) :
    ∀ r ∈ e.recipients, r.Proper := by
  intro r member
  rcases List.getElem_of_mem member with ⟨i, inside, rfl⟩
  have bound : i < keys.length := by rwa [← prepared.length_eq]
  exact proper_of_wrapFor (prepared.recipients.get bound inside)

section Header

variable (proper : ∀ r ∈ e.recipients, r.Proper)

theorem seen_header (e : Envelope) : e.header.seen = e.header := by
  have each : e.recipients.map (Header.Record.seen ∘ EccRecipient.record) =
      e.recipients.map EccRecipient.record :=
    List.map_congr_left fun r _ => EccRecipient.seen_record r
  simp only [Header.seen, header, Option.map_some, List.map_map, each]

theorem fitting_header (e : Envelope) :
    ∀ rs, e.header.records = some rs → ∀ r ∈ rs, r.Fitting := by
  rintro _ ⟨⟩ r member
  rcases List.mem_map.mp member with ⟨found, _, rfl⟩
  exact found.fitting_record

theorem storable_header (e : Envelope) :
    ∀ rs, e.header.records = some rs → ∀ r ∈ rs, r.Storable false := by
  rintro _ ⟨⟩ r member
  rcases List.mem_map.mp member with ⟨found, _, rfl⟩
  exact found.storable_record false

theorem paired_header (e : Envelope) :
    ∀ rs, e.header.records = some rs → ∀ r ∈ rs, r.Paired false :=
  fun rs there r member => (storable_header e rs there r member).paired

theorem exists_written (e : Envelope) :
    ∃ h ps, Header.Written false .curveLast e.header h ps :=
  Header.write?_spec false .curveLast e.header fun rs there r member =>
    (storable_header e rs there r member).toComplete

theorem write?_header (e : Envelope) :
    Header.write? false .curveLast e.header = some e.headerBytes := by
  rcases exists_written e with ⟨h, ps, written⟩
  rw [headerBytes, Header.toBytes?, written.put]
  rfl

theorem tables_records (l : List EccRecipient) :
    ((l.map EccRecipient.record).map Header.Record.tables).sum = 2 * l.length := by
  induction l with
  | nil => rfl
  | cons r l ih =>
      simp only [List.map_cons, List.sum_cons, ih, r.tables_record, List.length_cons]
      omega

theorem weight_records (l : List EccRecipient) (each : ∀ r ∈ l, r.Proper) :
    ((l.map EccRecipient.record).map Header.Record.weight).sum ≤ 426 * l.length := by
  induction l with
  | nil => exact Nat.le_refl 0
  | cons r l ih =>
      have first := EccRecipient.weight_record (each r (List.mem_cons_self ..))
      have rest := ih fun s member => each s (List.mem_cons_of_mem _ member)
      simp only [List.map_cons, List.sum_cons, List.length_cons]
      omega

include proper

theorem weight_header : e.header.weight ≤ 100 + 434 * e.recipients.length := by
  have sum := weight_records e.recipients proper
  simp only [Header.weight, header, Option.getD_some, List.length_map]
  omega

/-- As many of its records as are asked for are at known places, as long as they are not too far
from the end. -/
theorem headerBytes_spec :
    e.headerBytes.length ≤ e.header.weight ∧ (e.headerBytes.length < 2 ^ 32 →
      ∀ n ≤ e.recipients.length, n ≤ 5000000 →
        ∃ p, Header.HeaderAt false e.headerBytes p e.header ∧ p.records.length = n) := by
  rcases exists_written e with ⟨h, ps, written⟩
  obtain rfl : h = e.headerBytes := Option.some.inj (written.put.symm.trans (write?_header e))
  refine ⟨written.short, ?_⟩
  intro small n within few
  have sum := weight_records (e.recipients.take n) fun r member =>
    proper r (List.mem_of_mem_take member)
  have bound : n ≤ (e.header.records.getD []).length := by simpa [header] using within
  rw [List.length_take, Nat.min_eq_left within] at sum
  obtain ⟨p, at_, known, _⟩ := written.stored small n bound (written.records_take n (by
    simp only [header, Option.getD_some, ← List.map_take]
    omega))
  refine ⟨p, at_, ?_⟩
  rw [known, List.length_take, written.length_eq]
  omega

/-- The most records whose tables, with that of the header, are within the limit. -/
def maxRecords : Nat := 499999

omit proper in
theorem tables_header (e : Envelope) : e.header.tables = 1 + 2 * e.recipients.length := by
  rw [Header.tables, ← tables_records]
  rfl

theorem length_headerBytes_lt (few : e.recipients.length ≤ maxRecords) :
    e.headerBytes.length < 2 ^ 31 := by
  have weight := weight_header proper
  have short := (headerBytes_spec proper).1
  unfold maxRecords at few
  omega

theorem four_mul_le_length_headerBytes (small : e.headerBytes.length < 2 ^ 32) :
    4 + 4 * e.recipients.length ≤ e.headerBytes.length := by
  rcases (headerBytes_spec proper).2 small 0 (Nat.zero_le _) (by omega) with ⟨p, at_, _⟩
  have stored := at_.records
  split at stored
  next place rs _ there =>
    obtain ⟨_, list⟩ := stored
    have room := list.room
    have inside := list.count.place_le
    obtain rfl : e.recipients.map EccRecipient.record = rs := Option.some.inj there
    rw [List.length_map] at room
    omega
  next _ missing => cases missing
  next => exact stored.elim

theorem four_le_length_headerBytes (small : e.headerBytes.length < 2 ^ 32) :
    4 ≤ e.headerBytes.length :=
  Nat.le_of_add_right_le (four_mul_le_length_headerBytes proper small)

theorem openHeader_headerBytes (few : e.recipients.length ≤ maxRecords) :
    Container.openHeader e.headerBytes = .ok e.header := by
  have weight := weight_header proper
  have tables := tables_header e
  unfold maxRecords at few
  have read := Header.ofBytes?_of_write? (write?_header e) (storable_header e) (fitting_header e)
    (by rw [Header.Verify.maxSize]; omega)
    (by rw [tables, Header.Verify.maxTables]; omega)
  rw [Container.openHeader_eq_ok, read, seen_header]

/-- With more records it is refused, though it was written. -/
theorem openHeader_of_many (many : maxRecords < e.recipients.length)
    (small : e.headerBytes.length < 2 ^ 32) :
    Container.openHeader e.headerBytes = .error .malformedHeader := by
  unfold maxRecords at many
  rcases (headerBytes_spec proper).2 small 500000 (by omega) (by omega) with ⟨p, at_, count⟩
  have refused : Header.verified e.headerBytes = false := by
    rw [Bool.eq_false_iff]
    intro accepted
    have few := Header.tables_le_of_verified at_ (fitting_header e) (paired_header e) accepted
    rw [count] at few
    simp only [header, Option.getD_some, ← List.map_take, tables_records, List.length_take,
      Header.Verify.maxTables] at few
    omega
  rw [Container.openHeader, Header.ofBytes?, refused]
  rfl

theorem recipients_header : Container.recipients e.header = .ok (e.recipients.map .ecc) := by
  rw [Container.recipients_eq_ok]
  refine ⟨rfl, ?_⟩
  change List.Forall₂ _ (e.recipients.map EccRecipient.record) (e.recipients.map Recipient.ecc)
  rw [List.forall₂_map_left_iff, List.forall₂_map_right_iff, List.forall₂_same]
  intro r member
  exact EccRecipient.recipient_record (proper r member)

end Header

end Envelope

end SealedContainer
