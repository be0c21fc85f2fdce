import SealedContainer.Error
import SealedContainer.Hash.Argon2id
import SealedContainer.Hash.Hmac
import SealedContainer.Key.Ec

/-!
The secret keys of a container, all of 32 bytes, and how keys come from other keys. The file key is
wrapped for every recipient; the keys of the payload and of the header's authentication code are
derived from it. Every derivation is bound to its purpose by the bytes that `Purpose.info` gives; no
two purposes have the same.
-/

namespace SealedContainer

inductive SecretKind where
  | file
  | wrapping
  | content
  | headerMac
  deriving DecidableEq, Repr

def SecretKind.name : SecretKind → String
  | file => "FileMasterKey"
  | wrapping => "KeyEncryptionKey"
  | content => "ContentEncryptionKey"
  | headerMac => "HeaderHmacKey"

def keySize : Nat := 32

structure SecretKey (kind : SecretKind) where
  bytes : Bytes
  size : bytes.length = keySize
  deriving DecidableEq

namespace SecretKey

variable {kind : SecretKind}

def ofBytes (kind : SecretKind) (bytes : Bytes) : Except CryptoError (SecretKey kind) :=
  if size : bytes.length = keySize then return ⟨bytes, size⟩
  else throw (.secretSize kind.name bytes.length)

def shown (_ : SecretKey kind) : String := kind.name ++ " \x7b bytes: \"[REDACTED]\" \x7d"

def derive (kind : SecretKind) (key info : Bytes) : SecretKey kind :=
  ⟨Hkdf.expand key info keySize, Hkdf.length_expand ..⟩

def fresh (entropy : Bytes) : SecretKey .file :=
  ⟨Hkdf.extract (Bytes.ofString "CDOC20salt") entropy, length_hmacSha256 ..⟩

/-- The file key hidden by a wrapping key, or taken out again. -/
def maskedWith (bytes : Bytes) (key : SecretKey .wrapping) : Bytes := Bytes.xor bytes key.bytes

def wrap (file : SecretKey .file) (key : SecretKey .wrapping) : Bytes := maskedWith file.bytes key

def unwrap (wrapped : Bytes) (key : SecretKey .wrapping) : Except CryptoError (SecretKey .file) :=
  if size : wrapped.length = keySize then
    return ⟨maskedWith wrapped key, by simp [maskedWith, Bytes.xor, size, key.size]⟩
  else throw (.wrappedKeySize wrapped.length)

end SecretKey

inductive Purpose where
  /-- Wrapping a file key, for a recipient and by a sender. -/
  | wrapping (recipient sender : EcPublicKey)
  | content
  | headerMac
  | password (label : String)

def Purpose.infoParts : Purpose → List Bytes
  | wrapping recipient sender =>
    [Bytes.ofString "CDOC20kek", Bytes.ofString "XOR", recipient.encode, sender.encode]
  | content => [Bytes.ofString "CDOC20cek", Bytes.ofString "ChaCha20-Poly1305"]
  | headerMac => [Bytes.ofString "CDOC20hmac"]
  | password label => [Bytes.ofString "CDOC20password", Bytes.ofString label]

def Purpose.info (purpose : Purpose) : Bytes := purpose.infoParts.flatten

def premaster (shared : Bytes) : Bytes :=
  Hkdf.extract (Bytes.ofString "CDOC20kekpremaster") shared

def deriveShared (shared : Bytes) (info : List Bytes) (length : Nat) : Except CryptoError Bytes :=
  match Hkdf.expand? (premaster shared) info length with
  | some bytes => return bytes
  | none => throw .outputTooLong

def sharedWrappingKey (own : EcKeyPair) (peer recipient sender : EcPublicKey) :
    Except CryptoError (SecretKey .wrapping) := do
  let shared ← own.agree peer
  return SecretKey.derive .wrapping (premaster shared) (Purpose.wrapping recipient sender).info

def senderWrappingKey (sender : EcKeyPair) (recipient : EcPublicKey) :
    Except CryptoError (SecretKey .wrapping) :=
  sharedWrappingKey sender recipient recipient sender.publicKey

def recipientWrappingKey (recipient : EcKeyPair) (sender : EcPublicKey) :
    Except CryptoError (SecretKey .wrapping) :=
  sharedWrappingKey recipient sender recipient.publicKey sender

namespace SecretKey

def contentKey (file : SecretKey .file) : SecretKey .content :=
  derive .content file.bytes Purpose.content.info

def headerMacKey (file : SecretKey .file) : SecretKey .headerMac :=
  derive .headerMac file.bytes Purpose.headerMac.info

def headerMac (key : SecretKey .headerMac) (header : Bytes) : Bytes := hmacSha256 key.bytes header

def verifyHeader (key : SecretKey .headerMac) (header mac : Bytes) : Except CryptoError Unit :=
  if key.headerMac header = mac then return () else throw .headerMac

end SecretKey

def minSaltSize : Nat := 16

/-- The key of the recipient with this label. The password is stretched over the salt, and the
result bound to the label. -/
def passwordKey (password label : String) (salt : Bytes) (cost : Argon2id.Cost) :
    Except CryptoError Bytes :=
  if password = "" then throw .emptyPassword
  else if salt.length < minSaltSize then throw (.shortSalt salt.length)
  else if cost.Valid then
    let stretched := Argon2id.hash cost keySize (Bytes.ofString password) salt
    return Hkdf.expand stretched (Purpose.password label).info keySize
  else throw .passwordCost

end SealedContainer
