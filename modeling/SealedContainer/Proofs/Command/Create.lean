import SealedContainer.Command.Run
import SealedContainer.Proofs.Container.ReadBack
import SealedContainer.Proofs.FileTree
import SealedContainer.Proofs.Key.Private
import SealedContainer.Proofs.Key.Spelling

/-!
What making a container keeps of the input. Main statement: `created_decrypts`. Each recipient opens
the container and finds the bytes that the input held, as long as the input is not the container
itself: then these bytes are gone before they are read.
-/

namespace SealedContainer

open Outcome

namespace Envelope

variable {e : Envelope} {nonce plaintext : Bytes} {payload source : Source} {sink left : Sink}
  {file : SecretKey .file} {sender own : EcKeyPair} {keys : List EcPublicKey}

theorem fits_of_encrypt (wrote : e.encrypt nonce payload sink = (left, .ok ()))
    (delivered : payload.readAll = .ok plaintext) : Aead.Fits plaintext := by
  simp only [encrypt, delivered] at wrote
  split at wrote
  next => cases (Prod.mk.inj wrote).2
  next =>
    split at wrote
    next fits => exact fits
    next => cases (Prod.mk.inj wrote).2

theorem Prepared.decrypt_container (prepared : Prepared file sender keys e)
    (few : keys.length ≤ maxRecords) (member : own.publicKey ∈ keys)
    (drawn : nonce.length = Aead.nonceSize) (fits : Aead.Fits plaintext)
    (delivered : source.readAll = .ok (e.container nonce plaintext)) :
    Container.decrypt Frame.minHeaderSize source own = .ok plaintext := by
  have proper := prepared.proper
  have fewRecipients : e.recipients.length ≤ maxRecords := by rwa [prepared.length_eq]
  have small := length_headerBytes_lt proper fewRecipients
  have reach := four_le_length_headerBytes proper (by omega)
  have enough : Frame.minHeaderSize ≤ e.headerBytes.length := Nat.le_trans (by decide) reach
  obtain ⟨rest, read, _, encrypted⟩ := readHeader_container (by omega) enough delivered
  have agreement : sender.agree own.publicKey = own.agree sender.publicKey :=
    EcKeyPair.agree_comm (prepared.onCurve _ member).symm
  refine Container.decrypt_eq_ok.mpr ⟨_, _, file, _, read,
    prepared.authenticate_frame few member agreement, encrypted, ?_⟩
  rw [prepared.contentKey]
  exact Payload.decrypt_encrypt _ _ _ _ _ drawn fits

end Envelope

namespace Command

variable {t t' : FileTree} {container input privateKey output : String} {publicKeys : List String}
  {entropy : Entropy} {e : Envelope} {c : Curve} {own : EcKeyPair}

@[simp] theorem onFile_eq_ok {α : Type} {context path : String} {x : Except FileError α} {a : α} :
    onFile context path x = .ok a ↔ x = .ok a :=
  mapError_eq_ok

@[simp] theorem orReport_eq_ok {α : Type} {x : Except CryptoError α} {a : α} :
    orReport x = .ok a ↔ x = .ok a :=
  mapError_eq_ok

/-! ## The recipients -/

def Holds (t : FileTree) (path : String) (key : EcPublicKey) : Prop :=
  ∃ text, t.readText path = .ok text ∧ PublicKey.ofPem text = .ok (.ec key)

theorem holds_iff {path : String} {key : EcPublicKey} :
    Holds t path key ↔ ∃ m, loadRecipient t path = .ok m ∧ m.ecKey = .ok key := by
  simp only [Holds, loadRecipient, bind_eq_ok, mapError_eq_ok, onFile_eq_ok, orReport_eq_ok,
    pure_eq_ok, Except.ok.injEq]
  constructor
  · rintro ⟨text, read, parsed⟩
    exact ⟨_, ⟨text, read, _, parsed, rfl⟩, rfl⟩
  · rintro ⟨_, ⟨text, read, found, parsed, rfl⟩, same⟩
    cases KeyMaterial.ecKey_eq_ok.mp same
    exact ⟨text, read, parsed⟩

theorem mem_of_holds {keys : List EcPublicKey} {key : EcPublicKey}
    (held : List.Forall₂ (Holds t) publicKeys keys)
    (listed : ∃ path ∈ publicKeys, Holds t path key) : key ∈ keys := by
  obtain ⟨path, member, text, read, parsed⟩ := listed
  induction held with
  | nil => cases member
  | cons first _ ih =>
      cases member with
      | head =>
          -- There is one text in a file and one key in a text.
          obtain ⟨_, again, found⟩ := first
          cases read.symm.trans again
          cases parsed.symm.trans found
          exact List.mem_cons_self
      | tail _ later => exact List.mem_cons_of_mem _ (ih later)

theorem prepare_eq_ok : prepare t publicKeys entropy = .ok (e, c) ↔
    ∃ first rest sender, List.Forall₂ (Holds t) publicKeys (first :: rest) ∧ first.curve = c ∧
      entropy.keyPair c = .ok sender ∧
      Envelope.prepare (SecretKey.fresh entropy.file).bytes sender (first :: rest) = .ok e := by
  simp only [prepare, bind_eq_ok, mapM_eq_ok]
  constructor
  · rintro ⟨materials, loaded, made⟩
    split at made
    next first front =>
      simp only [Envelope.prepareFor, bind_eq_ok, orReport_eq_ok, mapM_eq_ok, pure_eq_ok,
        Except.ok.injEq, Prod.mk.injEq] at made
      obtain ⟨sender, drawn, _, ⟨keys, read, prepared⟩, rfl, rfl⟩ := made
      have held := (forall₂_comp.mpr ⟨materials, loaded, read⟩).imp fun _ _ => holds_iff.mpr
      cases read with
      | nil => cases front
      | cons one others =>
          cases front.symm.trans (KeyMaterial.ecKey_eq_ok.mp one)
          exact ⟨_, _, sender, held, rfl, drawn, prepared⟩
    next => cases made
    next => cases made
  · rintro ⟨first, rest, sender, held, rfl, drawn, prepared⟩
    obtain ⟨materials, loaded, read⟩ := forall₂_comp.mp (held.imp fun _ _ => holds_iff.mp)
    refine ⟨materials, loaded, ?_⟩
    cases read with
    | cons one others =>
        have front := KeyMaterial.ecKey_eq_ok.mp one
        have made : Envelope.prepareFor (SecretKey.fresh entropy.file).bytes sender _ = .ok e :=
          bind_eq_ok.mpr ⟨_, mapM_eq_ok.mpr (.cons one others), prepared⟩
        simp only [List.head?_cons, Option.bind_some, front, drawn, made, orReport,
          Except.mapError, ok_bind, pure_eq_ok]

/-! ## Making a container -/

theorem discard_eq_ok {α ε : Type} {x : Except ε α} {u : Unit} :
    discard x = .ok u ↔ ∃ a, x = .ok a := by
  cases x with
  | error r => simp [Functor.discard, Functor.mapConst, Except.map]
  | ok a => simp [Functor.discard, Functor.mapConst, Except.map]

section Emptied

variable {emptied : FileTree} (wrote : t.write container [] = .ok emptied)

include wrote

theorem find_emptied {content : Bytes} (found : t.find input = .ok (.file content)) :
    emptied.find input =
      .ok (.file (if t.locate container = t.locate input then [] else content)) := by
  rw [FileTree.find_write_other wrote found, apply_ite Node.file]

theorem find_of_emptied {node : Node} {payload : Bytes} (there : t.find input = .ok node)
    (left : emptied.find input = .ok (.file payload)) :
    ∃ content, t.find input = .ok (.file content) ∧
      payload = if t.locate container = t.locate input then [] else content := by
  cases node with
  | file content =>
      cases left.symm.trans (find_emptied wrote there)
      exact ⟨content, there, rfl⟩
  | directory =>
      have other := FileTree.find_write_other wrote there
      rw [if_neg (FileTree.locate_ne_of_directory wrote there), left] at other
      cases other

end Emptied

/-- What a container is made of: an envelope for the listed keys, and what is left of the input. -/
structure Creates (t : FileTree) (container : String) (publicKeys : List String) (input : String)
    (entropy : Entropy) (e : Envelope) (payload : Bytes) (t' : FileTree) : Prop where
  envelope : ∃ c, prepare t publicKeys entropy = .ok (e, c)
  input : ∃ content, t.find input = .ok (.file content) ∧
    payload = if t.locate container = t.locate input then [] else content
  small : e.headerBytes.length < 2 ^ 32
  fits : Aead.Fits payload
  written : ∃ emptied, t.write container [] = .ok emptied ∧
    emptied.write container (e.container entropy.nonce payload) = .ok t'

section Creates

variable {payload : Bytes} (creates : Creates t container publicKeys input entropy e payload t')

include creates

theorem Creates.find_kept {other : String} {node : Node} (found : t.find other = .ok node)
    (apart : t.locate container ≠ t.locate other) : t'.find other = .ok node := by
  obtain ⟨emptied, wrote, filled⟩ := creates.written
  obtain ⟨place, led, _⟩ := FileTree.write_eq_ok.mp wrote
  obtain ⟨place', led', _⟩ := FileTree.find_eq_ok.mp found
  have kept := FileTree.find_write_other wrote found
  rw [if_neg apart] at kept
  have still := FileTree.find_write_other filled kept
  rwa [FileTree.locate_write wrote led, FileTree.locate_write wrote led', ← led, ← led',
    if_neg apart] at still

theorem Creates.exists_write (writable : ∃ u, t.write output [] = .ok u) :
    ∃ u, t'.write output [] = .ok u := by
  obtain ⟨_, wrote, filled⟩ := creates.written
  obtain ⟨_, first⟩ := writable
  obtain ⟨_, second⟩ := FileTree.exists_write_of_write wrote first
  exact FileTree.exists_write_of_write filled second

end Creates

/-- A container is made if and only if there is all that it is made of. -/
theorem runCreate_eq_ok :
    (∃ message, runCreate container publicKeys input entropy t = (t', .ok message)) ↔
      ∃ e payload, Creates t container publicKeys input entropy e payload t' := by
  constructor
  · rintro ⟨message, ran⟩
    simp only [runCreate] at ran
    split at ran
    next => cases (Prod.mk.inj ran).2
    next e c emptied ready =>
      simp only [bind_eq_ok, discard_eq_ok, onFile_eq_ok, pure_eq_ok, Except.ok.injEq,
        Prod.mk.injEq] at ready
      obtain ⟨_, prepared, _, ⟨_, opened⟩, _, wrote, rfl, rfl⟩ := ready
      split at ran
      next => cases (Prod.mk.inj ran).2
      next last written =>
        obtain ⟨rfl, _⟩ := Prod.mk.inj ran
        -- The input was there before the container was emptied. What is read of it is what it
        -- holds after that.
        simp only [bind_eq_ok, onFile_eq_ok, orReport_eq_ok] at written
        obtain ⟨source, reopened, _, encrypted, filled⟩ := written
        generalize result : e.encrypt entropy.nonce source ⟨[], []⟩ = after at encrypted filled
        obtain ⟨sink, _⟩ := after
        cases encrypted
        obtain ⟨small, payload, delivered, all⟩ := Envelope.container_of_encrypt result
        obtain ⟨node, there, _⟩ := FileTree.openFile_eq_ok.mp opened
        rw [all, List.nil_append] at filled
        exact ⟨e, payload, ⟨c, prepared⟩,
          find_of_emptied wrote there (FileTree.find_of_readAll reopened delivered), small,
          Envelope.fits_of_encrypt result delivered, _, wrote, filled⟩
  · rintro ⟨e, payload, ⟨c, prepared⟩, ⟨content, there, rfl⟩, small, fits, emptied, wrote, filled⟩
    have opened := FileTree.openFile_eq_ok.mpr ⟨_, there, rfl⟩
    have reopened := FileTree.openFile_eq_ok.mpr ⟨_, find_emptied wrote there, rfl⟩
    have sound : Sink.Sound ⟨[], []⟩ := by simp [Sink.Sound]
    obtain ⟨left, encrypted, all⟩ := e.encrypt_eq_ok small entropy.nonce
      (Source.readAll_ofBytes _) fits sound
    have dropped (source : Source) : (discard (.ok source) : Except Report Unit) = .ok () := rfl
    rw [List.nil_append] at all
    simp only [runCreate, onFile, orReport, prepared, opened, dropped, wrote, reopened, encrypted,
      all, filled, Except.mapError, ok_bind, pure_eq_ok]
    exact ⟨_, rfl⟩

/-! ## Opening a container -/

theorem runDecrypt_eq_ok {u : FileTree} :
    (∃ message, runDecrypt container privateKey output t = (u, .ok message)) ↔
      ∃ plaintext, decryptFile t container privateKey = .ok plaintext ∧
        t.write output plaintext = .ok u := by
  constructor
  · rintro ⟨message, ran⟩
    simp only [runDecrypt] at ran
    split at ran
    next => cases (Prod.mk.inj ran).2
    next plaintext last written =>
      obtain ⟨rfl, _⟩ := Prod.mk.inj ran
      simp only [bind_eq_ok, onFile_eq_ok, pure_eq_ok, Except.ok.injEq, Prod.mk.injEq] at written
      obtain ⟨_, decrypted, _, wrote, rfl, rfl⟩ := written
      exact ⟨_, decrypted, wrote⟩
  · rintro ⟨plaintext, decrypted, wrote⟩
    simp only [runDecrypt, decrypted, onFile, wrote, Except.mapError, ok_bind, pure_eq_ok]
    exact ⟨_, rfl⟩

theorem decryptFile_of_file {pem : String} {bytes plaintext : Bytes}
    (read : t.readText privateKey = .ok pem) (parsed : EcKeyPair.ofPem pem = .ok own)
    (found : t.find container = .ok (.file bytes))
    (decrypted : Container.decrypt Frame.minHeaderSize (.ofBytes bytes) own = .ok plaintext) :
    decryptFile t container privateKey = .ok plaintext := by
  have opened := FileTree.openFile_eq_ok.mpr ⟨_, found, rfl⟩
  simp only [decryptFile, openContainer, onFile, orReport, read, parsed, opened, decrypted,
    Except.mapError, ok_bind]

/-- A container gives each recipient what was left of the input. -/
theorem Creates.decrypts {payload : Bytes}
    (creates : Creates t container publicKeys input entropy e payload t')
    (few : publicKeys.length ≤ Envelope.maxRecords) (drawn : entropy.nonce.length = Aead.nonceSize)
    (listed : ∃ path ∈ publicKeys, Holds t path own.publicKey) {pem : String}
    (read : t'.readText privateKey = .ok pem) (parsed : EcKeyPair.ofPem pem = .ok own)
    (writable : ∃ u, t'.write output [] = .ok u) :
    ∃ u message, runDecrypt container privateKey output t' = (u, .ok message) ∧
      u.find output = .ok (.file payload) := by
  obtain ⟨c, made⟩ := creates.envelope
  obtain ⟨first, rest, sender, held, _, _, prepared⟩ := prepare_eq_ok.mp made
  obtain ⟨_, file, _, each⟩ := Envelope.prepare_eq_ok.mp prepared
  obtain ⟨emptied, _, filled⟩ := creates.written
  have decrypted := each.decrypt_container (held.length_eq ▸ few) (mem_of_holds held listed) drawn
    creates.fits (Source.readAll_ofBytes _)
  have opened := decryptFile_of_file read parsed (FileTree.find_write filled) decrypted
  obtain ⟨_, blank⟩ := writable
  obtain ⟨u, wrote⟩ := FileTree.exists_write blank payload
  obtain ⟨message, ran⟩ := runDecrypt_eq_ok.mpr ⟨payload, opened, wrote⟩
  exact ⟨u, message, ran, FileTree.find_write wrote⟩

/--
Whenever a container is made, the input was a file. Whoever holds the private key to a public key
in one of the listed files opens the container, wherever that writes to: in the output there is then
what was in the input, unless the input is the container itself. In that case there is nothing.
-/
theorem created_decrypts {message : String} (few : publicKeys.length ≤ 499999)
    (drawn : entropy.nonce.length = Aead.nonceSize)
    (ran : run (.create container publicKeys input) entropy t = (t', .ok message)) :
    ∃ content, t.find input = .ok (.file content) ∧
      ∀ own : EcKeyPair, (∃ path ∈ publicKeys, Holds t path own.publicKey) →
        ∀ privateKey pem output draws, t'.readText privateKey = .ok pem →
          EcKeyPair.ofPem pem = .ok own → (∃ u, t'.write output [] = .ok u) →
            ∃ u said, run (.decrypt container privateKey output) draws t' = (u, .ok said) ∧
              u.find output = .ok (.file
                (if t.locate container = t.locate input then [] else content)) := by
  obtain ⟨e, payload, creates⟩ := runCreate_eq_ok.mp ⟨message, ran⟩
  obtain ⟨content, held, rfl⟩ := creates.input
  refine ⟨content, held, ?_⟩
  intro own listed privateKey pem output draws read parsed writable
  exact creates.decrypts few drawn listed read parsed writable

/-! ## A user's files -/

def deskText : Bytes := Bytes.ofString "quarterly numbers"

def desk : FileTree :=
  let pair := EcKeyPair.one .secp256r1
  ⟨[(["a.pub"], .file (Bytes.ofString (PublicKey.ec pair.publicKey).toPem)),
    (["a.key"], .file (Bytes.ofString pair.toPem)), (["plain.txt"], .file deskText)]⟩

def deskDraws : Entropy := ⟨[Bytes.ofNatBE 32 1], [], List.replicate 12 9⟩

theorem holds_desk : Holds desk "a.pub" (EcKeyPair.one .secp256r1).publicKey :=
  ⟨_, FileTree.readText_of_find (FileTree.IsName.find_eq (by decide) rfl), PublicKey.ofPem_toPem _⟩

theorem find_deskText : desk.find "plain.txt" = .ok (.file deskText) :=
  FileTree.IsName.find_eq (by decide) rfl

theorem creates_desk {container : String} (name : FileTree.IsName container)
    (free : desk.node? [container] ≠ some .directory) :
    ∃ e t', Creates desk container ["a.pub"] "plain.txt" deskDraws e
      (if desk.locate container = desk.locate "plain.txt" then [] else deskText) t' := by
  let pair := EcKeyPair.one .secp256r1
  have made := EcKeyPair.of_ofScalar? (EcKeyPair.ofScalar?_one .secp256r1)
  have drawn : deskDraws.keyPair .secp256r1 = .ok pair := by
    have scalar : Bytes.toNatBE ((Bytes.ofNatBE 32 1).take (Curve.fieldSize .secp256r1)) = 1 := by
      decide
    simp only [Entropy.keyPair, deskDraws, List.findSome?_cons, scalar, EcKeyPair.ofScalar?_one,
      pair]
  have onCurve : ∀ key ∈ [pair.publicKey], key.curve = pair.curve := by simp [EcKeyPair.curve]
  obtain ⟨e, prepared⟩ := Envelope.exists_prepare (SecretKey.fresh deskDraws.file).size
    (List.cons_ne_nil pair.publicKey []) onCurve
  obtain ⟨_, file, _, each⟩ := Envelope.prepare_eq_ok.mp prepared
  have small := Envelope.length_headerBytes_lt each.proper (by rw [each.length_eq]; decide)
  have fits : Aead.Fits
      (if desk.locate container = desk.locate "plain.txt" then [] else deskText) := by
    split <;> decide
  have wrote := name.write_eq free []
  obtain ⟨t', filled⟩ := FileTree.exists_write_of_write wrote (name.write_eq free _)
  exact ⟨e, t', ⟨_, prepare_eq_ok.mpr ⟨_, [], pair, .cons holds_desk .nil, made.1, drawn, prepared⟩⟩,
    ⟨_, find_deskText, rfl⟩, by omega, fits, _, wrote, filled⟩

theorem Creates.ready_desk {container : String} {payload : Bytes}
    (creates : Creates desk container ["a.pub"] "plain.txt" deskDraws e payload t')
    (apart : desk.locate container ≠ desk.locate "a.key") :
    t'.readText "a.key" = .ok (EcKeyPair.one .secp256r1).toPem ∧
      ∃ u, t'.write "out.txt" [] = .ok u := by
  have key : desk.find "a.key" = .ok (.file (Bytes.ofString (EcKeyPair.one .secp256r1).toPem)) :=
    FileTree.IsName.find_eq (by decide) rfl
  have name : FileTree.IsName "out.txt" := by decide
  exact ⟨FileTree.readText_of_find (creates.find_kept key apart),
    creates.exists_write ⟨_, name.write_eq (by decide) []⟩⟩

theorem desk_kept :
    ["a.pub"].length ≤ 499999 ∧ deskDraws.nonce.length = Aead.nonceSize ∧
      ∃ t' message,
        run (.create "sealed.cdoc" ["a.pub"] "plain.txt") deskDraws desk = (t', .ok message) ∧
        ∃ u said, run (.decrypt "sealed.cdoc" "a.key" "out.txt") deskDraws t' = (u, .ok said) ∧
          u.find "out.txt" = .ok (.file deskText) := by
  have few : ["a.pub"].length ≤ 499999 := by decide
  have drawn : deskDraws.nonce.length = Aead.nonceSize := rfl
  have name : FileTree.IsName "sealed.cdoc" := by decide
  obtain ⟨e, t', creates⟩ := creates_desk name (by decide)
  obtain ⟨message, ran⟩ := runCreate_eq_ok.mpr ⟨e, _, creates⟩
  have apart : desk.locate "sealed.cdoc" ≠ desk.locate "plain.txt" :=
    name.locate_ne (by decide) (by decide)
  obtain ⟨read, writable⟩ := creates.ready_desk (name.locate_ne (by decide) (by decide))
  obtain ⟨content, held, opens⟩ := created_decrypts few drawn ran
  cases find_deskText.symm.trans held
  have opened := opens _ ⟨"a.pub", List.mem_cons_self, holds_desk⟩ "a.key" _ "out.txt" deskDraws
    read (EcKeyPair.ofPem_toPem _) writable
  rw [if_neg apart] at opened
  exact ⟨few, drawn, t', message, ran, opened⟩

/-- The same files, with the container in the stead of the text. -/
theorem desk_lost :
    ∃ t' message,
      run (.create "plain.txt" ["a.pub"] "plain.txt") deskDraws desk = (t', .ok message) ∧
      desk.find "plain.txt" = .ok (.file deskText) ∧
      Holds desk "a.pub" (EcKeyPair.one .secp256r1).publicKey ∧
      t'.readText "a.key" = .ok (EcKeyPair.one .secp256r1).toPem ∧
      ∃ u said, run (.decrypt "plain.txt" "a.key" "out.txt") deskDraws t' = (u, .ok said) ∧
        u.find "out.txt" = .ok (.file []) ∧ u.find "out.txt" ≠ .ok (.file deskText) := by
  have name : FileTree.IsName "plain.txt" := by decide
  obtain ⟨e, t', creates⟩ := creates_desk name (by decide)
  obtain ⟨message, ran⟩ := runCreate_eq_ok.mpr ⟨e, _, creates⟩
  obtain ⟨read, writable⟩ := creates.ready_desk (name.locate_ne (by decide) (by decide))
  rw [if_pos rfl] at creates
  obtain ⟨u, said, opened, empty⟩ := creates.decrypts (by decide) rfl
    ⟨"a.pub", List.mem_cons_self, holds_desk⟩ read (EcKeyPair.ofPem_toPem _) writable
  refine ⟨t', message, ran, find_deskText, holds_desk, read, u, said, opened, empty, ?_⟩
  rw [empty]
  decide

end Command

end SealedContainer
