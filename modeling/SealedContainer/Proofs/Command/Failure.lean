import SealedContainer.Proofs.Command.Create

/-!
What commands that fail do to the files. Main statement: `hindered_leaves_files`. A command reads all it
needs before it writes anything, with one exception: the input of a new container is opened before
the container is emptied and read after that. A directory can be opened and not read, so with one
for its input a command that fails leaves an empty container.
-/

namespace SealedContainer.Command

open Outcome

variable {t t' u : FileTree} {container privateKey input output path : String}
  {publicKeys : List String} {entropy : Entropy} {command : Command} {r : Report}

/-! ## What is in the way -/

def Unread (t : FileTree) (path : String) : Prop := ∀ content, t.find path ≠ .ok (.file content)

inductive Unfit (t : FileTree) (path : String) : Prop where
  | unread {e : FileError} (failed : t.readText path = .error e)
  | unparsed {text : String} {e : CryptoError} (read : t.readText path = .ok text)
      (failed : PublicKey.ofPem text = .error e)
  | rsa {text : String} {key : RsaPublicKey} (read : t.readText path = .ok text)
      (parsed : PublicKey.ofPem text = .ok (.rsa key))

theorem unfit_iff : Unfit t path ↔ ∀ key, ¬ Holds t path key := by
  constructor
  · rintro unfit key ⟨text, again, found⟩
    cases unfit with
    | unread failed => cases failed.symm.trans again
    | unparsed read failed =>
        cases read.symm.trans again
        cases failed.symm.trans found
    | rsa read parsed =>
        cases read.symm.trans again
        cases parsed.symm.trans found
  · intro foreign
    cases read : t.readText path with
    | error e => exact .unread read
    | ok text =>
        cases parsed : PublicKey.ofPem text with
        | error e => exact .unparsed read parsed
        | ok key =>
            cases key with
            | ec key => exact absurd ⟨text, read, parsed⟩ (foreign key)
            | rsa key => exact .rsa read parsed

/-- What makes a command fail before it has anything to write. -/
inductive Hindered (t : FileTree) : Command → Prop where
  | keyUnread {container privateKey output : String} {e : FileError}
      (failed : t.readText privateKey = .error e) : Hindered t (.decrypt container privateKey output)
  | keyUnparsed {container privateKey output pem : String} {e : CryptoError}
      (read : t.readText privateKey = .ok pem) (failed : EcKeyPair.ofPem pem = .error e) :
      Hindered t (.decrypt container privateKey output)
  | containerUnread {container privateKey output : String} (unread : Unread t container) :
      Hindered t (.decrypt container privateKey output)
  | undecrypted {container privateKey output pem : String} {own : EcKeyPair} {bytes : Bytes}
      {e : CryptoError} (read : t.readText privateKey = .ok pem)
      (parsed : EcKeyPair.ofPem pem = .ok own) (found : t.find container = .ok (.file bytes))
      (failed : Container.decrypt Frame.minHeaderSize (.ofBytes bytes) own = .error e) :
      Hindered t (.decrypt container privateKey output)
  | unfit {container path input : String} {publicKeys : List String} (listed : path ∈ publicKeys)
      (unfit : Unfit t path) : Hindered t (.create container publicKeys input)
  | nobody {container input : String} : Hindered t (.create container [] input)
  | mixed {container first second input : String} {publicKeys : List String}
      {one other : EcPublicKey} (listed : first ∈ publicKeys) (listed' : second ∈ publicKeys)
      (holds : Holds t first one) (holds' : Holds t second other) (apart : one.curve ≠ other.curve) :
      Hindered t (.create container publicKeys input)
  | inputUnread {container input : String} {publicKeys : List String} (unread : Unread t input) :
      Hindered t (.create container publicKeys input)

/-! ## Opening a container -/

theorem decryptFile_eq_ok {plaintext : Bytes} :
    decryptFile t container privateKey = .ok plaintext ↔
      ∃ pem own bytes, t.readText privateKey = .ok pem ∧ EcKeyPair.ofPem pem = .ok own ∧
        t.find container = .ok (.file bytes) ∧
        Container.decrypt Frame.minHeaderSize (.ofBytes bytes) own = .ok plaintext := by
  constructor
  · intro opened
    simp only [decryptFile, openContainer, bind_eq_ok, mapError_eq_ok, onFile_eq_ok,
      orReport_eq_ok] at opened
    obtain ⟨pem, read, own, parsed, source, there, decrypted⟩ := opened
    obtain ⟨node, found, rfl⟩ := FileTree.openFile_eq_ok.mp there
    cases node with
    | file bytes => exact ⟨pem, own, bytes, read, parsed, found, decrypted⟩
    | directory => cases decrypted
  · rintro ⟨pem, own, bytes, read, parsed, found, decrypted⟩
    exact decryptFile_of_file read parsed found decrypted

/-- Whatever makes it fail, the files are what they were. -/
theorem runDecrypt_eq_error (ran : runDecrypt container privateKey output t = (t', .error r)) :
    t' = t := by
  simp only [runDecrypt] at ran
  split at ran
  next => exact (Prod.mk.inj ran).1.symm
  next => cases (Prod.mk.inj ran).2

/-! ## Making a container -/

/-- All that there has to be before a container is emptied, and the files after that. -/
structure Ready (t : FileTree) (container : String) (publicKeys : List String) (input : String)
    (entropy : Entropy) (emptied : FileTree) : Prop where
  envelope : ∃ e c, prepare t publicKeys entropy = .ok (e, c)
  input : ∃ node, t.find input = .ok node
  emptied : t.write container [] = .ok emptied

/-- A container that cannot be made is left empty, or nothing was ready for it. -/
theorem runCreate_eq_error
    (ran : runCreate container publicKeys input entropy t = (t', .error r)) :
    Ready t container publicKeys input entropy t' ∨
      t' = t ∧ ∀ u, ¬ Ready t container publicKeys input entropy u := by
  simp only [runCreate] at ran
  split at ran
  next failed =>
    have same := (Prod.mk.inj ran).1.symm
    refine .inr ⟨same, ?_⟩
    rintro u ⟨⟨e, c, prepared⟩, ⟨node, there⟩, wrote⟩
    have opened := FileTree.openFile_eq_ok.mpr ⟨node, there, rfl⟩
    have dropped (source : Source) : (discard (.ok source) : Except Report Unit) = .ok () := rfl
    simp only [prepared, opened, dropped, wrote, onFile, Except.mapError, ok_bind, pure_eq_ok]
      at failed
    cases failed
  next e c emptied ready =>
    simp only [bind_eq_ok, discard_eq_ok, onFile_eq_ok, pure_eq_ok, Except.ok.injEq,
      Prod.mk.injEq] at ready
    obtain ⟨_, prepared, _, ⟨_, opened⟩, _, wrote, rfl, rfl⟩ := ready
    obtain ⟨node, there, _⟩ := FileTree.openFile_eq_ok.mp opened
    split at ran
    next =>
      cases (Prod.mk.inj ran).1
      exact .inl ⟨⟨e, c, prepared⟩, ⟨node, there⟩, wrote⟩
    next => cases (Prod.mk.inj ran).2

theorem Creates.ready {e : Envelope} {payload : Bytes}
    (creates : Creates t container publicKeys input entropy e payload t') :
    ∃ emptied, Ready t container publicKeys input entropy emptied := by
  obtain ⟨c, prepared⟩ := creates.envelope
  obtain ⟨content, there, _⟩ := creates.input
  obtain ⟨emptied, wrote, _⟩ := creates.written
  exact ⟨emptied, ⟨e, c, prepared⟩, ⟨_, there⟩, wrote⟩

theorem Holds.unique {one other : EcPublicKey} (holds : Holds t path one)
    (holds' : Holds t path other) : one = other := by
  obtain ⟨text, read, parsed⟩ := holds
  obtain ⟨_, again, found⟩ := holds'
  cases read.symm.trans again
  cases parsed.symm.trans found
  rfl

theorem Ready.holds (ready : Ready t container publicKeys input entropy u) :
    publicKeys ≠ [] ∧
      ∃ c : Curve, ∀ path ∈ publicKeys, ∃ key, Holds t path key ∧ key.curve = c := by
  obtain ⟨e, c, made⟩ := ready.envelope
  obtain ⟨first, rest, sender, held, _, _, prepared⟩ := prepare_eq_ok.mp made
  obtain ⟨_, file, _, each⟩ := Envelope.prepare_eq_ok.mp prepared
  have somebody : publicKeys ≠ [] := by
    rintro rfl
    cases held
  refine ⟨somebody, sender.curve, ?_⟩
  intro path listed
  obtain ⟨i, inside, rfl⟩ := List.getElem_of_mem listed
  have bound : i < (first :: rest).length := held.length_eq ▸ inside
  exact ⟨_, held.get inside bound, each.onCurve _ (List.getElem_mem bound)⟩

/-! ## All commands -/

/-- Of all that is in the way, only the input can be there when the container is emptied. -/
theorem Hindered.directory_of_ready (hindered : Hindered t (.create container publicKeys input))
    (ready : Ready t container publicKeys input entropy u) : t.find input = .ok .directory := by
  obtain ⟨somebody, c, each⟩ := ready.holds
  cases hindered with
  | nobody => exact absurd rfl somebody
  | unfit listed unfit =>
      obtain ⟨key, holds, _⟩ := each _ listed
      exact absurd holds (unfit_iff.mp unfit key)
  | mixed listed listed' holds holds' apart =>
      obtain ⟨one, held, onCurve⟩ := each _ listed
      obtain ⟨other, held', onCurve'⟩ := each _ listed'
      cases holds.unique held
      cases holds'.unique held'
      exact absurd (onCurve.trans onCurve'.symm) apart
  | inputUnread unread =>
      obtain ⟨node, there⟩ := ready.input
      cases node with
      | file content => exact absurd there (unread content)
      | directory => exact there

theorem Hindered.not_ok (hindered : Hindered t command) {message : String} :
    run command entropy t ≠ (t', .ok message) := by
  intro ran
  cases command with
  | keygen | info => cases hindered
  | create container publicKeys input =>
      obtain ⟨e, payload, creates⟩ := runCreate_eq_ok.mp ⟨message, ran⟩
      obtain ⟨emptied, ready⟩ := creates.ready
      obtain ⟨content, there, _⟩ := creates.input
      cases there.symm.trans (hindered.directory_of_ready ready)
  | decrypt container privateKey output =>
      obtain ⟨plaintext, opened, _⟩ := runDecrypt_eq_ok.mp ⟨message, ran⟩
      obtain ⟨pem, own, bytes, again, known, there, decrypted⟩ := decryptFile_eq_ok.mp opened
      cases hindered with
      | keyUnread failed => cases failed.symm.trans again
      | keyUnparsed read failed =>
          cases read.symm.trans again
          cases failed.symm.trans known
      | containerUnread unread => exact unread bytes there
      | undecrypted read parsed found failed =>
          cases read.symm.trans again
          cases parsed.symm.trans known
          cases found.symm.trans there
          cases failed.symm.trans decrypted

theorem Hindered.failed (hindered : Hindered t command) (entropy : Entropy) :
    ∃ t' r, run command entropy t = (t', .error r) := by
  cases ran : run command entropy t with
  | mk t' result =>
      cases result with
      | ok message => exact absurd ran hindered.not_ok
      | error r => exact ⟨t', r, rfl⟩

/-- The container is emptied for an input that then cannot be read. -/
def EmptiedInVain (t : FileTree) (entropy : Entropy) (t' : FileTree) : Command → Prop
  | .create container publicKeys input =>
    Ready t container publicKeys input entropy t' ∧ t.find input = .ok .directory
  | _ => False

/--
A command that something is in the way of fails, whatever is drawn. It leaves the files as they
are, but for a container that is emptied in vain, and that is emptied whenever it can be.
-/
theorem hindered_leaves_files (hindered : Hindered t command) (entropy : Entropy) :
    ∃ t' r, run command entropy t = (t', .error r) ∧
      (EmptiedInVain t entropy t' command ∨
        t' = t ∧ ∀ u, ¬ EmptiedInVain t entropy u command) := by
  obtain ⟨t', r, ran⟩ := hindered.failed entropy
  refine ⟨t', r, ran, ?_⟩
  cases command with
  | keygen | info => cases hindered
  | create container publicKeys input =>
      rcases runCreate_eq_error ran with ready | ⟨same, unready⟩
      · exact .inl ⟨ready, hindered.directory_of_ready ready⟩
      · exact .inr ⟨same, fun u vain => unready u vain.1⟩
  | decrypt container privateKey output => exact .inr ⟨runDecrypt_eq_error ran, fun _ => id⟩

/-- There is one public key on the desk, and no second. -/
theorem desk_untouched :
    Hindered desk (.create "sealed.cdoc" ["a.pub", "b.pub"] "plain.txt") ∧
      ∃ r, run (.create "sealed.cdoc" ["a.pub", "b.pub"] "plain.txt") deskDraws desk =
        (desk, .error r) := by
  have name : FileTree.IsName "b.pub" := by decide
  have absent : desk.readText "b.pub" = .error .notFound := by
    rw [FileTree.readText, name.find_of_none (by decide), error_bind]
  have hindered : Hindered desk (.create "sealed.cdoc" ["a.pub", "b.pub"] "plain.txt") :=
    .unfit (by decide) (.unread absent)
  obtain ⟨t', r, ran, ⟨_, directory⟩ | ⟨rfl, _⟩⟩ := hindered_leaves_files hindered deskDraws
  · cases find_deskText.symm.trans directory
  · exact ⟨hindered, r, ran⟩

/-- The desk itself for an input: there was no container, and then there is an empty one. -/
theorem desk_emptied :
    Hindered desk (.create "sealed.cdoc" ["a.pub"] ".") ∧
      ∃ t' r, run (.create "sealed.cdoc" ["a.pub"] ".") deskDraws desk = (t', .error r) ∧
        desk.find "sealed.cdoc" = .error .notFound ∧
        t'.find "sealed.cdoc" = .ok (.file []) := by
  have name : FileTree.IsName "sealed.cdoc" := by decide
  have hindered : Hindered desk (.create "sealed.cdoc" ["a.pub"] ".") := by
    apply Hindered.inputUnread
    intro content file
    cases (FileTree.find_here desk).symm.trans file
  obtain ⟨e, _, creates⟩ := creates_desk name (by decide)
  obtain ⟨emptied, ready⟩ := creates.ready
  obtain ⟨t', r, ran⟩ := hindered.failed deskDraws
  rcases runCreate_eq_error ran with left | ⟨_, unready⟩
  · exact ⟨hindered, t', r, ran, name.find_of_none (by decide), FileTree.find_write left.emptied⟩
  · exact absurd ⟨ready.envelope, ⟨_, FileTree.find_here desk⟩, ready.emptied⟩ (unready emptied)

end SealedContainer.Command
