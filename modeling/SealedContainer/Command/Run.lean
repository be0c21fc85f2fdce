import SealedContainer.Bytes.Hex
import SealedContainer.Command
import SealedContainer.Command.Report
import SealedContainer.Container
import SealedContainer.FileTree
import SealedContainer.Key.Private

/-!
What the commands do with files. All that is random comes from outside, so a command is a function
of its arguments, the files and the random bytes.
-/

namespace SealedContainer

structure Entropy where
  /-- For a key pair: the first draw that is within the range of the curve counts. -/
  scalars : List Bytes
  file : Bytes
  nonce : Bytes
  deriving DecidableEq, Repr

namespace Entropy

def keyPair (e : Entropy) (c : Curve) : Except CryptoError EcKeyPair :=
  match e.scalars.findSome? fun draw =>
      EcKeyPair.ofScalar? c (Bytes.toNatBE (draw.take c.fieldSize)) with
  | some pair => .ok pair
  | none => .error (.random "no usable scalar")

end Entropy

namespace Command

abbrev Result := FileTree × Except Report String

def orReport {α : Type} (x : Except CryptoError α) : Except Report α := x.mapError .ofCryptoError

def onFile {α : Type} (context path : String) (x : Except FileError α) : Except Report α :=
  x.mapError fun e => (Report.ofFileError e).within s!"{context}: {path}"

/-! ## Making keys -/

/-- The private key is written first, and stays if the public one cannot be written. -/
def runKeygen (curve privatePath publicPath : String) (entropy : Entropy) (t : FileTree) : Result :=
  let pair : Except Report EcKeyPair := do
    match Curve.ofName? curve with
    | some c => orReport (entropy.keyPair c)
    | none => throw (.ofCryptoError (.curveName curve))
  match pair with
  | .error r => (t, .error r)
  | .ok pair =>
    match onFile "writing private key" privatePath
        (t.write privatePath (Bytes.ofString pair.toPem)) with
    | .error r => (t, .error r)
    | .ok t =>
      match onFile "writing public key" publicPath
          (t.write publicPath (Bytes.ofString (PublicKey.ec pair.publicKey).toPem)) with
      | .error r => (t, .error r)
      | .ok t => (t, .ok (s!"Generated {pair.curve.name} key pair\n" ++
          s!"  private: {privatePath}\n  public:  {publicPath}\n"))

/-! ## Making containers -/

/-- The last name in a path without what follows its last point, unless that point is in front. -/
def fileStem (path : String) : String :=
  let name := ((path.splitOn "/").filter fun part => part ≠ "" ∧ part ≠ ".").getLastD ""
  match (name.splitOn ".").reverse with
  | _ :: first :: rest =>
    let stem := ".".intercalate (first :: rest).reverse
    if name = ".." then "" else if stem = "" then name else stem
  | _ => name

def loadRecipient (t : FileTree) (path : String) : Except Report KeyMaterial := do
  let pem ← onFile "reading public key" path (t.readText path)
  let key ← (orReport (PublicKey.ofPem pem)).mapError
    (Report.within s!"parsing public key: {path}")
  return .publicKey key (fileStem path)

/-- All containers of one recipient list are on the curve of the first recipient. -/
def prepare (t : FileTree) (publicKeys : List String) (entropy : Entropy) :
    Except Report (Envelope × Curve) := do
  let materials ← publicKeys.mapM (loadRecipient t)
  match materials.head?.bind KeyMaterial.publicKey? with
  | some (.ec key) =>
    let sender ← orReport (entropy.keyPair key.curve)
    let file := SecretKey.fresh entropy.file
    return (← orReport (Envelope.prepareFor file.bytes sender materials), key.curve)
  | some (.rsa _) => throw ⟨"RSA recipients are not supported by this container version", []⟩
  | none => throw ⟨"at least one --pubkey is required", []⟩

/--
The container is emptied before the input is read, though the input has to be there before. So an
input that is also the container is found empty.
-/
def runCreate (container : String) (publicKeys : List String) (input : String) (entropy : Entropy)
    (t : FileTree) : Result :=
  let ready := do
    let envelope ← prepare t publicKeys entropy
    discard (onFile "opening input" input (t.openFile input))
    return (envelope, ← onFile "creating container" container (t.write container []))
  match ready with
  | .error r => (t, .error r)
  | .ok ((envelope, curve), t) =>
    let written := do
      let payload ← onFile "opening input" input (t.openFile input)
      let (sink, result) := envelope.encrypt entropy.nonce payload ⟨[], []⟩
      orReport result
      onFile "writing container" container (t.write container sink.written)
    match written with
    | .error r => (t, .error r)
    | .ok t => (t, .ok (s!"Encrypted {input} → {container} " ++
        s!"({publicKeys.length} recipient(s), {curve.name})\n"))

/-! ## Opening containers -/

def openContainer (t : FileTree) (container : String) : Except Report Source :=
  onFile "opening container" container (t.openFile container)

def decryptFile (t : FileTree) (container privateKey : String) : Except Report Bytes := do
  let pem ← onFile "reading private key" privateKey (t.readText privateKey)
  let pair ← (orReport (EcKeyPair.ofPem pem)).mapError
    (Report.within s!"parsing private key: {privateKey}")
  let source ← openContainer t container
  (orReport (Container.decrypt Frame.minHeaderSize source pair)).mapError
    (Report.within s!"decrypting {container}")

def runDecrypt (container privateKey output : String) (t : FileTree) : Result :=
  let written := do
    let plaintext ← decryptFile t container privateKey
    return (plaintext, ← onFile "writing output" output (t.write output plaintext))
  match written with
  | .error r => (t, .error r)
  | .ok (plaintext, t) =>
    (t, .ok s!"Decrypted {container} → {output} ({plaintext.length} bytes)\n")

def fingerprint (key : EcPublicKey) : String := Hex.encode ((key.encode.drop 1).take 8)

def recipientLine (i : Nat) : Recipient → String
  | .ecc r => s!"  [{i}] ecc_public_key  {r.curve.name}  {fingerprint r.recipient}\n"
  | .server r =>
    s!"  [{i}] key_server      {r.curve.name}  server={r.server} transaction={r.transaction}\n"

def listing (t : FileTree) (container : String) : Except Report String := do
  let source ← openContainer t container
  let (frame, recipients, _) ← (orReport (Container.readHeader Frame.minHeaderSize source)).mapError
    (Report.within s!"parsing {container}")
  return s!"{container}\n  header:     {frame.header.length} bytes\n" ++
    s!"  recipients: {recipients.length}\n" ++
    String.join (recipients.zipIdx.map fun (r, i) => recipientLine i r)

/-! ## All commands -/

def run (command : Command) (entropy : Entropy) (t : FileTree) : Result :=
  match command with
  | keygen curve privatePath publicPath => runKeygen curve privatePath publicPath entropy t
  | create container publicKeys input => runCreate container publicKeys input entropy t
  | decrypt container privateKey output => runDecrypt container privateKey output t
  | info container => (t, listing t container)

end Command

end SealedContainer
