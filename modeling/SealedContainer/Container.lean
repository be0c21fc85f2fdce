import SealedContainer.Cipher.Aead
import SealedContainer.Container.Frame
import SealedContainer.Header.Layout
import SealedContainer.Header.Verify
import SealedContainer.Key.Material
import SealedContainer.Key.Secret

/-!
Containers: a payload encrypted under a file key, which the header holds wrapped for each
recipient. The tag of the payload also covers the header and its authentication code.

Opening a container is lenient until the header is known to be authentic: only the caller's record
is looked for, and whatever is wrong with it counts as tampering. The header as a whole is
validated after its authentication code, and the payload is read last.
-/

namespace SealedContainer.Payload

def associated (header mac : Bytes) : Bytes := Bytes.ofString "CDOC20payload" ++ header ++ mac

def encrypt (key : SecretKey .content) (header mac nonce plaintext : Bytes) : Bytes :=
  nonce ++ Aead.sealed key.bytes nonce (associated header mac) plaintext

def decrypt (key : SecretKey .content) (header mac encrypted : Bytes) : Except CryptoError Bytes :=
  if encrypted.length < Aead.nonceSize + Aead.tagSize then throw (.payloadShort encrypted.length)
  else
    match Aead.open? key.bytes (encrypted.take Aead.nonceSize) (associated header mac)
        (encrypted.drop Aead.nonceSize) with
    | some plaintext => return plaintext
    | none => throw .payloadTag

end SealedContainer.Payload

namespace SealedContainer

structure EccRecipient where
  curve : Curve
  recipient : EcPublicKey
  sender : EcPublicKey
  wrappedKey : Bytes
  deriving DecidableEq

structure ServerRecipient where
  curve : Curve
  recipient : Bytes
  server : String
  transaction : String
  wrappedKey : Bytes
  deriving DecidableEq

inductive Recipient where
  | ecc (r : EccRecipient)
  | server (r : ServerRecipient)
  deriving DecidableEq

def Recipient.ecc? : Recipient → Option EccRecipient
  | ecc r => some r
  | server _ => none

/-- What a container is made of before its payload is known. -/
structure Envelope where
  recipients : List EccRecipient
  macKey : SecretKey .headerMac
  contentKey : SecretKey .content

namespace Envelope

def wrapFor (file : SecretKey .file) (sender : EcKeyPair) (recipient : EcPublicKey) :
    Except CryptoError EccRecipient := do
  if recipient.curve ≠ sender.curve then throw (.recipientCurve recipient.curve sender.curve)
  else
    let key ← senderWrappingKey sender recipient
    return ⟨sender.curve, recipient, sender.publicKey, file.wrap key⟩

def prepare (fileKey : Bytes) (sender : EcKeyPair) (recipients : List EcPublicKey) :
    Except CryptoError Envelope := do
  if size : fileKey.length = keySize then
    if recipients = [] then throw .noRecipients
    else
      let file : SecretKey .file := ⟨fileKey, size⟩
      return ⟨← recipients.mapM (wrapFor file sender), file.headerMacKey, file.contentKey⟩
  else throw (.fileKeySize fileKey.length)

/-- The same for recipients of any kind, all of which have to have a key on a curve. -/
def prepareFor (fileKey : Bytes) (sender : EcKeyPair) (materials : List KeyMaterial) :
    Except CryptoError Envelope := do
  prepare fileKey sender (← materials.mapM KeyMaterial.ecKey)

end Envelope

def EccRecipient.record (r : EccRecipient) : Header.Record where
  detailsType := 1
  details := some (.ecc ⟨Int8.ofInt r.curve.tag, some r.recipient.encode, some r.sender.encode⟩)
  wrappedKey := some r.wrappedKey
  keyMethod := 1

namespace Envelope

def header (e : Envelope) : Header := ⟨some (e.recipients.map EccRecipient.record), 1⟩

def headerBytes (e : Envelope) : Bytes := (e.header.toBytes? .curveLast).getD []

def frame (e : Envelope) : Frame := ⟨e.headerBytes, e.macKey.headerMac e.headerBytes⟩

def maxHeaderSize : Nat := 2 ^ 32 - 1

def encrypt (e : Envelope) (nonce : Bytes) (payload : Source) (sink : Sink) :
    Sink × Except CryptoError Unit :=
  let frame := e.frame
  if maxHeaderSize < frame.header.length then (sink, .error (.headerTooLarge frame.header.length))
  else
    match payload.readAll with
    | .error failure => (sink, .error (.io failure.text))
    | .ok plaintext =>
      if Aead.Fits plaintext then
        let encrypted := Payload.encrypt e.contentKey frame.header frame.mac nonce plaintext
        let (sink, result) := sink.writeEach (frame.pieces ++ [encrypted])
        (sink, result.mapError .io)
      else (sink, .error .payloadTooLong)

end Envelope

namespace Container

def headerKey (curve : Curve) (side : Side) (bytes : Bytes) : Except CryptoError EcPublicKey :=
  (EcPublicKey.decode curve bytes).mapError (.headerKey side)

def orThrow {α : Type} (e : CryptoError) : Option α → Except CryptoError α
  | some a => .ok a
  | none => .error e

def curveOfTag (tag : Int8) : Except CryptoError Curve :=
  orThrow (.curveTag tag.toInt) (Curve.ofTag? tag.toInt)

def eccRecipient (details : Header.EccDetails) (wrappedKey : Bytes) :
    Except CryptoError EccRecipient := do
  let mismatch := CryptoError.detailsMismatch "recipients_ECCPublicKey"
  let curve ← curveOfTag details.curve
  let recipient ← orThrow mismatch details.recipient
  let sender ← orThrow mismatch details.sender
  return ⟨curve, ← headerKey curve .recipient recipient, ← headerKey curve .sender sender,
    wrappedKey⟩

def serverRecipient (details : Header.ServerDetails) (wrappedKey : Bytes) :
    Except CryptoError ServerRecipient := do
  let mismatch := CryptoError.detailsMismatch "recipients_KeyServer"
  let server ← orThrow mismatch details.server
  let transaction ← orThrow mismatch details.transaction
  return ⟨← curveOfTag details.curve, details.recipient.getD [], server, transaction, wrappedKey⟩

def recipient (r : Header.Record) : Except CryptoError Recipient := do
  if r.keyMethod ≠ 1 then throw (.keyMethod r.keyMethod.toInt)
  let wrappedKey ← orThrow .noWrappedKey r.wrappedKey
  if wrappedKey.length ≠ keySize then throw (.recordKeySize wrappedKey.length)
  if r.detailsType = 1 then
    let details ← orThrow (.detailsMismatch "recipients_ECCPublicKey") r.ecc?
    return .ecc (← eccRecipient details wrappedKey)
  else if r.detailsType = 2 then
    let details ← orThrow (.detailsMismatch "recipients_KeyServer") r.server?
    return .server (← serverRecipient details wrappedKey)
  else throw (.detailsType r.detailsType.toNat)

def recipients (h : Header) : Except CryptoError (List Recipient) :=
  if h.payloadMethod ≠ 1 then throw (.payloadMethod h.payloadMethod.toInt)
  else (h.records.getD []).mapM recipient

def openHeader (bytes : Bytes) : Except CryptoError Header :=
  orThrow .malformedHeader (Header.ofBytes? bytes)

/-- Reads a container up to its payload. The authentication code is not checked. -/
def readHeader (minimum : Nat) (source : Source) :
    Except CryptoError (Frame × List Recipient × Source) := do
  let (frame, source) ← Frame.read minimum source
  return (frame, ← recipients (← openHeader frame.header), source)

/-- The first record with the recipient's key in it, byte for byte. -/
def findRecord (h : Header) (own : EcKeyPair) : Option Header.Record :=
  (h.records.getD []).find? fun r => (r.ecc?.bind (·.recipient)) = some own.publicKey.encode

def recoverKey (r : Header.Record) (own : EcKeyPair) : Except CryptoError (SecretKey .file) := do
  let sender ← orThrow .recordNoSender (r.ecc?.bind (·.sender))
  let sender ← (EcPublicKey.decode own.curve sender).mapError .recordSender
  let wrappedKey ← orThrow .recordKey (r.wrappedKey.filter (·.length = keySize))
  SecretKey.unwrap wrappedKey (← recipientWrappingKey own sender)

def authenticate (frame : Frame) (own : EcKeyPair) : Except CryptoError (SecretKey .file) := do
  let header ← openHeader frame.header
  let record ← orThrow .noMatchingRecipient (findRecord header own)
  let file ← recoverKey record own
  file.headerMacKey.verifyHeader frame.header frame.mac
  let _ ← recipients header
  return file

/-- The payload of a container, for the recipient, and what is left of the stream. -/
def decryptFrom (minimum : Nat) (source : Source) (own : EcKeyPair) :
    Except Stop (Bytes × Source) := do
  let (frame, source) ← Frame.readFrom minimum source
  let file ← Stop.leaving source (authenticate frame own)
  let plaintext ← Stop.leaving [] do
    let encrypted ← Frame.reading source.readAll
    Payload.decrypt file.contentKey frame.header frame.mac encrypted
  return (plaintext, [])

def decrypt (minimum : Nat) (source : Source) (own : EcKeyPair) : Except CryptoError Bytes :=
  ((decryptFrom minimum source own).map Prod.fst).mapError Stop.error

end Container

end SealedContainer
