import SealedContainer.Proofs.Container.Frame
import SealedContainer.Proofs.Container.Recipient

/-!
Which containers a key pair opens. Opening looks for a record leniently and validates the header
afterwards; the main statement says that this comes to the same as a strict reading, the first of
its recipients with the caller's key, and both authentication checks.
-/

namespace SealedContainer.Container

open Outcome

theorem openHeader_eq_ok {bytes : Bytes} {h : Header} :
    openHeader bytes = .ok h ↔ Header.ofBytes? bytes = some h :=
  orThrow_eq_ok

theorem recipients_eq_ok {h : Header} {list : List Recipient} :
    recipients h = .ok list ↔
      h.payloadMethod = 1 ∧
        List.Forall₂ (fun r found => recipient r = .ok found) (h.records.getD []) list := by
  unfold recipients
  by_cases method : h.payloadMethod = 1
  · simp [method, mapM_eq_ok]
  · simp [method]

theorem authenticate_eq_ok {frame : Frame} {own : EcKeyPair} {file : SecretKey .file} :
    authenticate frame own = .ok file ↔
      ∃ h r list, openHeader frame.header = .ok h ∧ findRecord h own = some r ∧
        recoverKey r own = .ok file ∧ file.headerMacKey.headerMac frame.header = frame.mac ∧
          recipients h = .ok list := by
  simp only [authenticate, bind_eq_ok, orThrow_eq_ok, pure_eq_ok, Except.ok.injEq]
  constructor
  · rintro ⟨h, opened, r, found, file, recovered, ⟨⟩, verified, list, strict, rfl⟩
    exact ⟨h, r, list, opened, found, recovered, SecretKey.verifyHeader_eq_ok.mp verified, strict⟩
  · rintro ⟨h, r, list, opened, found, recovered, same, strict⟩
    exact ⟨h, opened, r, found, file, recovered, (), SecretKey.verifyHeader_eq_ok.mpr same, list,
      strict, rfl⟩

/-- Behind its frame a stream is only read once the frame is authentic, and then to its end. -/
theorem decryptFrom_of_readFrom {minimum : Nat} {source rest : Source} {f : Frame}
    (read : Frame.readFrom minimum source = .ok (f, rest)) (own : EcKeyPair) :
    decryptFrom minimum source own = (Stop.leaving rest (authenticate f own) >>= fun file =>
      Stop.leaving [] (Frame.reading rest.readAll >>=
        Payload.decrypt file.contentKey f.header f.mac) >>= fun plaintext =>
          .ok (plaintext, [])) := by
  rw [decryptFrom, read]
  rfl

theorem decrypt_of_decryptFrom {α : Type} {minimum : Nat} {source rest : Source}
    {own : EcKeyPair} {x : Except CryptoError α} {y : α → Except CryptoError Bytes}
    (result : decryptFrom minimum source own = (Stop.leaving rest x >>= fun a =>
      Stop.leaving [] (y a) >>= fun plaintext => .ok (plaintext, []))) :
    decrypt minimum source own = x >>= y := by
  rw [decrypt, result]
  cases x with
  | error e => rfl
  | ok a =>
      simp only [Stop.leaving, Except.mapError, ok_bind]
      cases y a <;> rfl

theorem decrypt_eq (minimum : Nat) (source : Source) (own : EcKeyPair) :
    decrypt minimum source own = (do
      let (frame, source) ← Frame.read minimum source
      let file ← authenticate frame own
      let encrypted ← Frame.reading source.readAll
      Payload.decrypt file.contentKey frame.header frame.mac encrypted) := by
  cases read : Frame.readFrom minimum source with
  | error stop =>
      rw [decrypt, decryptFrom, Frame.read, read]
      rfl
  | ok got =>
      rw [decrypt_of_decryptFrom (decryptFrom_of_readFrom read own), Frame.read, read]
      rfl

theorem decrypt_eq_ok {minimum : Nat} {source : Source} {own : EcKeyPair} {plaintext : Bytes} :
    decrypt minimum source own = .ok plaintext ↔
      ∃ frame rest file encrypted, Frame.read minimum source = .ok (frame, rest) ∧
        authenticate frame own = .ok file ∧ rest.readAll = .ok encrypted ∧
          Payload.decrypt file.contentKey frame.header frame.mac encrypted = .ok plaintext := by
  simp only [decrypt_eq, bind_eq_ok, Frame.reading_eq_ok]
  constructor
  · rintro ⟨⟨frame, rest⟩, read, file, passed, encrypted, got, opened⟩
    exact ⟨frame, rest, file, encrypted, read, passed, got, opened⟩
  · rintro ⟨frame, rest, file, encrypted, read, passed, got, opened⟩
    exact ⟨⟨frame, rest⟩, read, file, passed, encrypted, got, opened⟩

/-- After its frame, what happens to a container is up to the authentication of the frame and to
what is left of the stream. -/
theorem decrypt_of_frame {minimum : Nat} (f : Frame) (macFull : f.mac.length = Frame.macSize)
    (below : f.header.length < 2 ^ 32) (enough : minimum ≤ f.header.length) (own : EcKeyPair)
    (source : Source) (delivered : f.pieces.flatten <+: source.bytes) :
    ∃ rest : Source, source.readAll = rest.readAll.map (f.pieces.flatten ++ ·) ∧
      decrypt minimum source own = (authenticate f own >>= fun file =>
        Frame.reading rest.readAll >>= Payload.decrypt file.contentKey f.header f.mac) := by
  rcases Frame.read_of_front f macFull below enough source delivered with ⟨rest, read, split⟩
  exact ⟨rest, split, by rw [decrypt_eq, read, ok_bind]⟩

theorem recipient_of_record {h : Header} {list : List Recipient} (strict : recipients h = .ok list)
    {i : Nat} {r : Header.Record} (held : (h.records.getD [])[i]? = some r) :
    ∃ found, list[i]? = some found ∧ recipient r = .ok found := by
  have each := (recipients_eq_ok.mp strict).2
  rcases List.getElem?_eq_some_iff.mp held with ⟨inside, rfl⟩
  have bound : i < list.length := by rwa [← each.length_eq]
  exact ⟨_, List.getElem?_eq_getElem bound, each.get inside bound⟩

theorem record_of_recipient {h : Header} {list : List Recipient} (strict : recipients h = .ok list)
    {i : Nat} {found : Recipient} (there : list[i]? = some found) :
    ∃ r, (h.records.getD [])[i]? = some r ∧ recipient r = .ok found := by
  have each := (recipients_eq_ok.mp strict).2
  rcases List.getElem?_eq_some_iff.mp there with ⟨inside, rfl⟩
  have bound : i < (h.records.getD []).length := by rwa [each.length_eq]
  exact ⟨_, List.getElem?_eq_getElem bound, each.get bound inside⟩

/-- The strict reading sees a recipient with the caller's key, and none before it, exactly where
the lenient search stops. -/
theorem first_recipient_iff {h : Header} {list : List Recipient} (strict : recipients h = .ok list)
    (own : EcKeyPair) (i : Nat) (e : EccRecipient) :
    (list[i]? = some (.ecc e) ∧ e.recipient = own.publicKey ∧
        ∀ j : Nat, j < i → ∀ s, list[j]? = some (.ecc s) → s.recipient ≠ own.publicKey) ↔
      ∃ r, (h.records.getD [])[i]? = some r ∧ recipient r = .ok (.ecc e) ∧ addressed own r ∧
        ∀ j : Nat, j < i → ∀ s, (h.records.getD [])[j]? = some s → ¬ addressed own s := by
  constructor
  · rintro ⟨there, ours, before⟩
    rcases record_of_recipient strict there with ⟨r, held, read⟩
    refine ⟨r, held, read, (addressed_iff read own).mpr ⟨e, rfl, ours⟩, ?_⟩
    intro j less s earlier matched
    rcases recipient_of_record strict earlier with ⟨found, listed, same⟩
    rcases (addressed_iff same own).mp matched with ⟨e', rfl, ours'⟩
    exact before j less e' listed ours'
  · rintro ⟨r, held, read, matched, before⟩
    rcases recipient_of_record strict held with ⟨found, listed, same⟩
    rw [read] at same
    cases same
    rcases (addressed_iff read own).mp matched with ⟨e', same, ours⟩
    cases same
    refine ⟨listed, ours, ?_⟩
    intro j less s earlier ours'
    rcases record_of_recipient strict earlier with ⟨r', held', read'⟩
    exact before j less r' held' ((addressed_iff read' own).mpr ⟨s, rfl, ours'⟩)

/-- A container is opened if and only if it is framed as it should be, the strict reading accepts
its header, and the first recipient in it with the caller's key yields a file key under which the
header's authentication code and the payload's tag are right. -/
theorem decrypt_eq_ok_iff (bytes : Bytes) (own : EcKeyPair) (plaintext : Bytes) :
    decrypt Frame.minHeaderSize (Source.ofBytes bytes) own = .ok plaintext ↔
      ∃ (header mac encrypted : Bytes) (list : List Recipient) (rest : Source) (i : Nat)
        (e : EccRecipient) (key : SecretKey .wrapping) (file : SecretKey .file),
        bytes = Bytes.ofString "CDOC" ++ [2] ++ Bytes.ofNatBE 4 header.length ++ header ++ mac ++
            encrypted ∧
        1 ≤ header.length ∧ header.length < 2 ^ 32 ∧ mac.length = 32 ∧
        readHeader Frame.minHeaderSize (Source.ofBytes bytes) = .ok (⟨header, mac⟩, list, rest) ∧
        list[i]? = some (.ecc e) ∧ e.recipient = own.publicKey ∧
        (∀ j : Nat, j < i → ∀ s, list[j]? = some (.ecc s) → s.recipient ≠ own.publicKey) ∧
        recipientWrappingKey own e.sender = .ok key ∧
        file.bytes = Bytes.xor e.wrappedKey key.bytes ∧
        mac = file.headerMacKey.headerMac header ∧
        Payload.decrypt file.contentKey header mac encrypted = .ok plaintext := by
  have delivered := Source.readAll_ofBytes bytes
  rw [decrypt_eq_ok]
  constructor
  · rintro ⟨frame, rest, file, encrypted, read, passed, got, opened⟩
    rcases Frame.eq_of_read delivered read with ⟨payload, framed, left, macFull, below, enough⟩
    rw [got] at left
    cases left
    rcases authenticate_eq_ok.mp passed with ⟨h, r, list, accepted, found, recovered, same, strict⟩
    rcases findRecord_eq_some.mp found with ⟨i, held, matched, before⟩
    rcases recipient_of_record strict held with ⟨found, _, listed⟩
    rcases (addressed_iff listed own).mp matched with ⟨e, rfl, ours⟩
    rcases (recoverKey_of_strict listed ours file).mp recovered with ⟨key, derived, unwrapped⟩
    rcases (first_recipient_iff strict own i e).mpr ⟨r, held, listed, matched, before⟩ with ⟨there,
      _, first⟩
    refine ⟨frame.header, frame.mac, encrypted, list, rest, i, e, key, file, ?_, enough, below,
      macFull, ?_, there, ours, first, derived, unwrapped, same.symm, opened⟩
    · rw [framed, Frame.flatten_pieces]
      simp [Frame.prelude, Frame.mark, Frame.version]
    · simp only [readHeader, read, ok_bind, accepted, strict]
      rfl
  · rintro ⟨header, mac, encrypted, list, rest, i, e, key, file, framed, enough, below, macFull,
      parsed, there, ours, first, derived, unwrapped, same, opened⟩
    simp only [readHeader, bind_eq_ok, pure_eq_ok, Except.ok.injEq, Prod.mk.injEq] at parsed
    rcases parsed with ⟨⟨frame, rest⟩, read, h, accepted, list, strict, rfl, rfl, rfl⟩
    rcases Frame.eq_of_read delivered read with ⟨payload, framed', left, _⟩
    have tail : payload = encrypted := by
      rw [framed', Frame.flatten_pieces] at framed
      simpa [Frame.prelude, Frame.mark, Frame.version] using framed
    rcases (first_recipient_iff strict own i e).mp ⟨there, ours, first⟩ with ⟨r, held, listed,
      matched, before⟩
    refine ⟨⟨header, mac⟩, rest, file, encrypted, read, ?_, by rw [left, tail], opened⟩
    exact authenticate_eq_ok.mpr ⟨h, r, list, accepted,
      findRecord_eq_some.mpr ⟨i, held, matched, before⟩,
      (recoverKey_of_strict listed ours file).mpr ⟨key, derived, unwrapped⟩, same.symm, strict⟩

end SealedContainer.Container
