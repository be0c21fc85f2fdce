import SealedContainer.Proofs.Container.Acceptance
import SealedContainer.Proofs.Header.Safety
import SealedContainer.Proofs.Payload

/-!
The checks that come before the payload, in their order. The bytes up to the payload decide which of
them fails first, and unless all of them pass nothing behind these bytes is read.
-/

namespace SealedContainer.Container

open Outcome

/-- A check that comes before the payload. -/
inductive Stage where
  | framing
  | verifier
  | lookup
  | unwrapping
  | mac
  | validation
  deriving DecidableEq, Repr

def Stage.kind : Stage → ErrorKind
  | framing | verifier | validation => .parse
  | lookup => .noMatchingRecipient
  | unwrapping | mac => .authentication

def declared (front : Bytes) : Nat := Bytes.toNatBE ((front.drop 5).take 4)

def frameIn (front : Bytes) : Frame :=
  ⟨(front.drop Frame.preludeSize).take (declared front),
    (front.drop Frame.preludeSize).drop (declared front)⟩

/-- The first checks pass, down to the record of the recipient. -/
structure Found (minimum : Nat) (own : EcKeyPair) (front : Bytes) (h : Header)
    (r : Header.Record) : Prop where
  framed : Frame.announced minimum (front.take Frame.preludeSize) = .ok (declared front)
  verified : Header.verified (frameIn front).header = true
  read : Header.read? (frameIn front).header = some h
  first : findRecord h own = some r

/-- The authentication code is right under the file key that the record holds. -/
structure Authentic (minimum : Nat) (own : EcKeyPair) (front : Bytes) (h : Header)
    (r : Header.Record) (file : SecretKey .file) : Prop extends Found minimum own front h r where
  recovered : recoverKey r own = .ok file
  same : file.headerMacKey.headerMac (frameIn front).header = (frameIn front).mac

/-- The check that fails, after all before it have passed, and its error. -/
inductive Refused (minimum : Nat) (own : EcKeyPair) (front : Bytes) :
    Stage → CryptoError → Prop where
  | framing {e : CryptoError}
      (unframed : Frame.announced minimum (front.take Frame.preludeSize) = .error e) :
      Refused minimum own front .framing e
  | verifier
      (framed : Frame.announced minimum (front.take Frame.preludeSize) = .ok (declared front))
      (rejected : Header.verified (frameIn front).header = false) :
      Refused minimum own front .verifier .malformedHeader
  | lookup {h : Header}
      (framed : Frame.announced minimum (front.take Frame.preludeSize) = .ok (declared front))
      (verified : Header.verified (frameIn front).header = true)
      (read : Header.read? (frameIn front).header = some h)
      (missing : ∀ r ∈ h.records.getD [], ¬ addressed own r) :
      Refused minimum own front .lookup .noMatchingRecipient
  | sender {h : Header} {r : Header.Record} {bytes : Bytes} {fault : PointFault}
      (found : Found minimum own front h r) (held : r.ecc?.bind (·.sender) = some bytes)
      (undecodable : EcPublicKey.decode own.curve bytes = .error fault) :
      Refused minimum own front .unwrapping (.recordSender fault)
  | wrappedKey {h : Header} {r : Header.Record} {bytes wrapped : Bytes} {key : EcPublicKey}
      (found : Found minimum own front h r) (held : r.ecc?.bind (·.sender) = some bytes)
      (decoded : EcPublicKey.decode own.curve bytes = .ok key)
      (there : r.wrappedKey = some wrapped) (size : wrapped.length ≠ keySize) :
      Refused minimum own front .unwrapping .recordKey
  | mac {h : Header} {r : Header.Record} {file : SecretKey .file}
      (found : Found minimum own front h r) (recovered : recoverKey r own = .ok file)
      (differs : file.headerMacKey.headerMac (frameIn front).header ≠ (frameIn front).mac) :
      Refused minimum own front .mac .headerMac
  | validation {h : Header} {r : Header.Record} {file : SecretKey .file} {e : CryptoError}
      (authentic : Authentic minimum own front h r file) (invalid : recipients h = .error e) :
      Refused minimum own front .validation e

theorem kind_of_headerKey_eq_error {curve : Curve} {side : Side} {bytes : Bytes} {e : CryptoError}
    (refused : headerKey curve side bytes = .error e) : e.kind = .parse := by
  unfold headerKey at refused
  cases decoded : EcPublicKey.decode curve bytes with
  | ok key => simp [decoded, Except.mapError] at refused
  | error fault =>
      simp only [decoded, Except.mapError, Except.error.injEq] at refused
      rw [← refused]
      rfl

theorem kind_of_orThrow_eq_error {α : Type} {x : Option α} {e f : CryptoError}
    (kind : e.kind = .parse) (refused : orThrow e x = .error f) : f.kind = .parse := by
  rw [← (orThrow_eq_error.mp refused).2]
  exact kind

theorem kind_of_eccRecipient_eq_error {d : Header.EccDetails} {wrapped : Bytes} {e : CryptoError}
    (refused : eccRecipient d wrapped = .error e) : e.kind = .parse := by
  unfold eccRecipient curveOfTag at refused
  rcases bind_eq_error.mp refused with tag | ⟨curve, _, refused⟩
  · exact kind_of_orThrow_eq_error rfl tag
  rcases bind_eq_error.mp refused with missing | ⟨recipient, _, refused⟩
  · exact kind_of_orThrow_eq_error rfl missing
  rcases bind_eq_error.mp refused with missing | ⟨sender, _, refused⟩
  · exact kind_of_orThrow_eq_error rfl missing
  rcases bind_eq_error.mp refused with undecoded | ⟨_, _, refused⟩
  · exact kind_of_headerKey_eq_error undecoded
  rcases bind_eq_error.mp refused with undecoded | ⟨_, _, impossible⟩
  · exact kind_of_headerKey_eq_error undecoded
  · cases impossible

theorem kind_of_serverRecipient_eq_error {d : Header.ServerDetails} {wrapped : Bytes}
    {e : CryptoError} (refused : serverRecipient d wrapped = .error e) : e.kind = .parse := by
  unfold serverRecipient curveOfTag at refused
  rcases bind_eq_error.mp refused with missing | ⟨server, _, refused⟩
  · exact kind_of_orThrow_eq_error rfl missing
  rcases bind_eq_error.mp refused with missing | ⟨transaction, _, refused⟩
  · exact kind_of_orThrow_eq_error rfl missing
  rcases bind_eq_error.mp refused with tag | ⟨_, _, impossible⟩
  · exact kind_of_orThrow_eq_error rfl tag
  · cases impossible

theorem kind_of_recipient_eq_error {r : Header.Record} {e : CryptoError}
    (refused : recipient r = .error e) : e.kind = .parse := by
  unfold recipient at refused
  by_cases method : r.keyMethod = 1
  · rw [if_neg (Classical.not_not.mpr method)] at refused
    rcases bind_eq_error.mp refused with missing | ⟨wrapped, _, refused⟩
    · exact kind_of_orThrow_eq_error rfl missing
    by_cases size : wrapped.length = keySize
    · rw [if_neg (Classical.not_not.mpr size)] at refused
      by_cases one : r.detailsType = 1
      · rw [if_pos one] at refused
        rcases bind_eq_error.mp refused with missing | ⟨d, _, refused⟩
        · exact kind_of_orThrow_eq_error rfl missing
        rcases bind_eq_error.mp refused with inner | ⟨_, _, impossible⟩
        · exact kind_of_eccRecipient_eq_error inner
        · cases impossible
      · rw [if_neg one] at refused
        by_cases two : r.detailsType = 2
        · rw [if_pos two] at refused
          rcases bind_eq_error.mp refused with missing | ⟨d, _, refused⟩
          · exact kind_of_orThrow_eq_error rfl missing
          rcases bind_eq_error.mp refused with inner | ⟨_, _, impossible⟩
          · exact kind_of_serverRecipient_eq_error inner
          · cases impossible
        · rw [if_neg two] at refused
          cases refused
          rfl
    · rw [if_pos size] at refused
      cases refused
      rfl
  · rw [if_pos method] at refused
    cases refused
    rfl

theorem kind_of_recipients_eq_error {h : Header} {e : CryptoError}
    (refused : recipients h = .error e) : e.kind = .parse := by
  unfold recipients at refused
  by_cases method : h.payloadMethod = 1
  · rw [if_neg (Classical.not_not.mpr method)] at refused
    rcases exists_of_mapM_eq_error refused with ⟨r, _, failed⟩
    exact kind_of_recipient_eq_error failed
  · rw [if_pos method] at refused
    cases refused
    rfl

/-- In a record that passed the check, only the sender's key and the size of the wrapped key can be
wrong. -/
theorem recoverKey_eq_error {r : Header.Record} {own : EcKeyPair} {e : CryptoError}
    (guarded : r.Guarded) (matched : addressed own r) (failed : recoverKey r own = .error e) :
    ∃ bytes, r.ecc?.bind (·.sender) = some bytes ∧
      ((∃ fault, EcPublicKey.decode own.curve bytes = .error fault ∧ e = .recordSender fault) ∨
        ∃ key wrapped, EcPublicKey.decode own.curve bytes = .ok key ∧
          r.wrappedKey = some wrapped ∧ wrapped.length ≠ keySize ∧ e = .recordKey) := by
  obtain ⟨bytes, held⟩ : ∃ bytes, r.ecc?.bind (·.sender) = some bytes := by
    rcases r with ⟨type, details, key, method⟩
    have kind := guarded.details
    simp only [addressed, Header.Record.ecc?] at kind matched ⊢
    cases kind with
    | ecc _ sender => exact Option.isSome_iff_exists.mp sender
    | server => simp at matched
    | other => simp at matched
  rcases Option.isSome_iff_exists.mp guarded.key with ⟨wrapped, there⟩
  refine ⟨bytes, held, ?_⟩
  simp only [recoverKey, held, orThrow, ok_bind, there] at failed
  cases decoded : EcPublicKey.decode own.curve bytes with
  | error fault =>
      simp only [decoded, Except.mapError, error_bind, Except.error.injEq] at failed
      exact Or.inl ⟨fault, rfl, failed.symm⟩
  | ok key =>
      simp only [decoded, Except.mapError, ok_bind] at failed
      by_cases size : wrapped.length = keySize
      · -- Then both the agreement and the unwrapping succeed.
        rcases recipientWrappingKey_eq_ok own key (EcPublicKey.eq_encode_of_decode decoded).1 with
          ⟨wrapping, derived⟩
        have filtered : (some wrapped).filter (·.length = keySize) = some wrapped := by
          simp [Option.filter, size]
        simp only [filtered, ok_bind, derived, SecretKey.unwrap, dif_pos size] at failed
        cases failed
      · have filtered : (some wrapped).filter (·.length = keySize) = none := by
          simp [Option.filter, size]
        simp only [filtered, error_bind, Except.error.injEq] at failed
        exact Or.inr ⟨key, wrapped, rfl, there, size, failed.symm⟩

theorem Refused.kind_eq {minimum : Nat} {own : EcKeyPair} {front : Bytes} {stage : Stage}
    {e : CryptoError} (refused : Refused minimum own front stage e) : e.kind = stage.kind := by
  cases refused with
  | framing unframed => exact Frame.kind_of_announced_eq_error unframed
  | verifier => rfl
  | lookup => rfl
  | sender => rfl
  | wrappedKey => rfl
  | mac => rfl
  | validation _ invalid => exact kind_of_recipients_eq_error invalid

section Front

variable {minimum : Nat} {own : EcKeyPair} {front : Bytes}
  (whole : front.length = Frame.preludeSize + declared front + Frame.macSize)

include whole

theorem frameIn_spec {size : Nat}
    (framed : Frame.announced minimum (front.take Frame.preludeSize) = .ok size) :
    size = declared front ∧ (frameIn front).pieces.flatten = front ∧
      (frameIn front).mac.length = Frame.macSize ∧
      (frameIn front).header.length = declared front ∧ declared front < 2 ^ 32 ∧
        minimum ≤ declared front := by
  have nine : Frame.preludeSize = 9 := rfl
  have full : (front.take Frame.preludeSize).length = Frame.preludeSize := by
    rw [List.length_take]
    omega
  rcases (Frame.announced_eq_ok full).mp framed with ⟨prelude, below, enough⟩
  have same : declared front = size := by
    have field : (front.drop 5).take 4 = Bytes.ofNatBE 4 size := by
      have tail := congrArg (List.drop 5) prelude
      rwa [List.drop_take, Frame.drop_prelude] at tail
    rw [declared, field, Bytes.toNatBE_ofNatBE_of_lt below]
  have headerSize : (frameIn front).header.length = declared front := by
    rw [frameIn, List.length_take, List.length_drop]
    omega
  refine ⟨same.symm, ?_, ?_, headerSize, by omega, by omega⟩
  · rw [Frame.flatten_pieces, headerSize, same, ← prelude, frameIn, List.take_append_drop,
      List.take_append_drop]
  · rw [frameIn, List.length_drop, List.length_drop]
    omega

theorem decryptFrom_of_unframed {e : CryptoError}
    (unframed : Frame.announced minimum (front.take Frame.preludeSize) = .error e)
    (source : Source) (delivered : front <+: source.bytes) :
    ∃ taken left, taken <+: front ∧ source.Cut taken left ∧
      decryptFrom minimum source own = .error ⟨e, left⟩ := by
  have full : (front.take Frame.preludeSize).length = Frame.preludeSize := by
    rw [List.length_take]
    omega
  obtain ⟨left, cut, read⟩ := Frame.readFrom_of_announced_error full unframed source
    ((List.take_prefix _ _).trans delivered)
  refine ⟨_, left, List.take_prefix _ _, cut, ?_⟩
  rw [decryptFrom, read, error_bind]

theorem decryptFrom_of_framed {size : Nat}
    (framed : Frame.announced minimum (front.take Frame.preludeSize) = .ok size)
    (source : Source) (delivered : front <+: source.bytes) :
    ∃ rest, source.Cut front rest ∧
      decryptFrom minimum source own =
        (Stop.leaving rest (authenticate (frameIn front) own) >>= fun file =>
          Stop.leaving [] (Frame.reading rest.readAll >>=
            Payload.decrypt file.contentKey (frameIn front).header (frameIn front).mac) >>=
              fun plaintext => .ok (plaintext, [])) := by
  rcases frameIn_spec whole framed with ⟨_, pieces, macFull, headerSize, below, enough⟩
  rw [← pieces] at delivered
  obtain ⟨rest, read⟩ := @Frame.readFrom_of_front minimum (frameIn front) macFull (by omega)
    (by omega) source delivered
  have cut := (Frame.cut_of_readFrom read).1
  rw [pieces] at cut
  exact ⟨rest, cut, decryptFrom_of_readFrom read own⟩

end Front

/-- Where the authentication of a framed header fails, and that otherwise it is authentic. -/
theorem authenticate_cases (minimum : Nat) (own : EcKeyPair) (front : Bytes)
    (framed : Frame.announced minimum (front.take Frame.preludeSize) = .ok (declared front)) :
    (∃ stage e, Refused minimum own front stage e ∧
        authenticate (frameIn front) own = .error e) ∨
      ∃ h r file list, Authentic minimum own front h r file ∧ recipients h = .ok list ∧
        authenticate (frameIn front) own = .ok file := by
  cases verified : Header.verified (frameIn front).header with
  | false =>
      refine Or.inl ⟨_, _, .verifier framed verified, ?_⟩
      simp only [authenticate, openHeader, Header.ofBytes?, verified]
      rfl
  | true =>
      rcases Header.read?_of_verified verified with ⟨h, read, guarded⟩
      have opened : openHeader (frameIn front).header = .ok h := by
        rw [openHeader_eq_ok, Header.ofBytes?, if_pos verified, read]
      cases first : findRecord h own with
      | none =>
          refine Or.inl ⟨_, _, .lookup framed verified read (findRecord_eq_none.mp first), ?_⟩
          rw [authenticate, opened, ok_bind, first]
          rfl
      | some r =>
          have found : Found minimum own front h r := ⟨framed, verified, read, first⟩
          rcases findRecord_eq_some.mp first with ⟨i, there, matched, _⟩
          cases recovered : recoverKey r own with
          | error e =>
              have failed : authenticate (frameIn front) own = .error e := by
                rw [authenticate, opened, ok_bind, first, orThrow, ok_bind, recovered, error_bind]
              rcases recoverKey_eq_error (guarded r (List.mem_of_getElem? there)) matched recovered
                with ⟨bytes, held, kind⟩
              rcases kind with ⟨fault, undecodable, rfl⟩ | ⟨key, wrapped, decoded, had, size, rfl⟩
              · exact Or.inl ⟨_, _, .sender found held undecodable, failed⟩
              · exact Or.inl ⟨_, _, .wrappedKey found held decoded had size, failed⟩
          | ok file =>
              have rest : authenticate (frameIn front) own =
                  (file.headerMacKey.verifyHeader (frameIn front).header (frameIn front).mac >>=
                    fun _ => recipients h >>= fun _ => pure file) := by
                rw [authenticate, opened, ok_bind, first, orThrow, ok_bind, recovered, ok_bind]
              by_cases same : file.headerMacKey.headerMac (frameIn front).header =
                  (frameIn front).mac
              · have authentic : Authentic minimum own front h r file := ⟨found, recovered, same⟩
                rw [SecretKey.verifyHeader_eq_ok.mpr same, ok_bind] at rest
                cases strict : recipients h with
                | error e =>
                    refine Or.inl ⟨_, _, .validation authentic strict, ?_⟩
                    rw [rest, strict, error_bind]
                | ok list =>
                    refine Or.inr ⟨h, r, file, list, authentic, strict, ?_⟩
                    rw [rest, strict]
                    rfl
              · refine Or.inl ⟨_, _, .mac found recovered same, ?_⟩
                rw [rest, SecretKey.verifyHeader, if_neg same]
                rfl

theorem kind_of_reading_eq_error {α : Type} {x : Except StreamFailure α} {e : CryptoError}
    (refused : Frame.reading x = .error e) : e.kind = .io := by
  cases x with
  | ok a => cases refused
  | error text =>
      cases refused
      rfl

/-- Up to the payload the stream is judged by its first bytes alone. Either the first check that
fails ends the decryption, whatever comes behind these bytes and however it comes, and leaves all of
that unread; or the header is authentic and valid, and only then the rest of the stream is read, to
its end. A header that passes the verifier is thus called malformed only if it is authentic. -/
theorem decrypt_before_payload (minimum : Nat) (own : EcKeyPair) (front : Bytes)
    (whole : front.length = Frame.preludeSize + declared front + Frame.macSize) :
    ((∃ stage e, Refused minimum own front stage e ∧ e.kind = stage.kind ∧
        ∀ source : Source, front <+: source.bytes →
          decrypt minimum source own = .error e ∧
            ∃ taken left, taken <+: front ∧ source.Cut taken left ∧
              decryptFrom minimum source own = .error ⟨e, left⟩) ∨
      ∃ h r file list, Authentic minimum own front h r file ∧ recipients h = .ok list ∧
        ∀ source : Source, front <+: source.bytes → ∃ rest, source.Cut front rest ∧
          decrypt minimum source own = (Frame.reading rest.readAll >>=
            Payload.decrypt file.contentKey (frameIn front).header (frameIn front).mac) ∧
          decryptFrom minimum source own =
            (Stop.leaving [] (decrypt minimum source own) >>= fun plaintext =>
              .ok (plaintext, []))) ∧
      ∀ (source : Source) (e : CryptoError), front <+: source.bytes →
        Frame.announced minimum (front.take Frame.preludeSize) = .ok (declared front) →
        Header.verified (frameIn front).header = true →
        decrypt minimum source own = .error e → e.kind = .parse →
          ∃ h r file, Authentic minimum own front h r file ∧ recipients h = .error e := by
  constructor
  · cases framed : Frame.announced minimum (front.take Frame.preludeSize) with
    | error e =>
        have refused : Refused minimum own front .framing e := .framing framed
        refine Or.inl ⟨_, e, refused, refused.kind_eq, ?_⟩
        intro source delivered
        obtain ⟨taken, left, before, cut, result⟩ :=
          decryptFrom_of_unframed whole framed source delivered
        exact ⟨by rw [decrypt, result]; rfl, taken, left, before, cut, result⟩
    | ok size =>
        have announces := framed
        rw [(frameIn_spec whole framed).1] at framed
        rcases authenticate_cases minimum own front framed with
          ⟨stage, e, refused, failed⟩ | ⟨h, r, file, list, authentic, strict, passed⟩
        · refine Or.inl ⟨stage, e, refused, refused.kind_eq, ?_⟩
          intro source delivered
          obtain ⟨rest, cut, result⟩ :=
            decryptFrom_of_framed whole announces source delivered
          rw [failed] at result
          exact ⟨by rw [decrypt, result]; rfl, front, rest, List.prefix_rfl, cut, result⟩
        · refine Or.inr ⟨h, r, file, list, authentic, strict, ?_⟩
          intro source delivered
          obtain ⟨rest, cut, result⟩ :=
            decryptFrom_of_framed whole announces source delivered
          have read := decrypt_of_decryptFrom result
          rw [passed, ok_bind] at read
          rw [passed] at result
          exact ⟨rest, cut, read, by rw [read]; exact result⟩
  · intro source e delivered framed verified failed kind
    obtain ⟨rest, _, result⟩ := decryptFrom_of_framed whole framed source delivered
    rw [decrypt_of_decryptFrom result] at failed
    rcases authenticate_cases minimum own front framed with
      ⟨stage, e', refused, stopped⟩ | ⟨h, r, file, list, authentic, strict, passed⟩
    · rw [stopped, error_bind] at failed
      cases failed
      cases refused with
      | framing unframed => rw [framed] at unframed; cases unframed
      | verifier _ rejected => rw [verified] at rejected; cases rejected
      | validation authentic invalid => exact ⟨_, _, _, authentic, invalid⟩
      | lookup | sender | wrappedKey | mac => cases kind
    · -- Neither the rest of the stream nor the payload gives an error of this kind.
      rw [passed, ok_bind] at failed
      rcases bind_eq_error.mp failed with read | ⟨encrypted, _, refused⟩
      · rw [kind_of_reading_eq_error read] at kind
        cases kind
      · rw [Payload.kind_of_decrypt_eq_error refused] at kind
        cases kind

/-- The shortest container whose header can be read, up to its payload. There are no records in
it. -/
def emptyFront : Bytes :=
  Frame.prelude 4 ++ [0, 0, 0, 0] ++ List.replicate Frame.macSize 0

theorem nobody_addressed_in_emptyFront :
    emptyFront.length = Frame.preludeSize + declared emptyFront + Frame.macSize ∧
      ∀ source : Source, emptyFront <+: source.bytes →
        decrypt Frame.minHeaderSize source (EcKeyPair.one .secp256r1) =
          .error .noMatchingRecipient := by
  have whole : emptyFront.length = Frame.preludeSize + declared emptyFront + Frame.macSize := by
    decide
  have ended : decrypt Frame.minHeaderSize (Source.ofBytes emptyFront)
      (EcKeyPair.one .secp256r1) = .error .noMatchingRecipient := by
    rfl
  have delivered : emptyFront <+: (Source.ofBytes emptyFront).bytes := by
    simp [Source.ofBytes, Source.bytes]
  refine ⟨whole, ?_⟩
  rcases decrypt_before_payload Frame.minHeaderSize (EcKeyPair.one .secp256r1) emptyFront whole with
    ⟨⟨stage, e, _, _, result⟩ | ⟨h, r, file, list, authentic, _⟩, _⟩
  · rw [(result _ delivered).1] at ended
    cases ended
    exact fun source front => (result source front).1
  · have nobody : (Header.read? (frameIn emptyFront).header).bind
        (findRecord · (EcKeyPair.one .secp256r1)) = none := by
      rfl
    rw [authentic.read, Option.bind_some, authentic.first] at nobody
    cases nobody

end SealedContainer.Container
