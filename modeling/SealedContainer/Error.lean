import SealedContainer.Curve

/-!
What can go wrong with keys and containers: a constructor for each cause, its kind and its text.
-/

namespace SealedContainer

inductive PointFault where
  | length (curve : Curve) (got : Nat)
  | leadByte (got : UInt8)
  | offCurve (curve : Curve)
  deriving DecidableEq, Repr

inductive ErrorKind where
  | encoding
  | invalidKey
  | parse
  | authentication
  | noMatchingRecipient
  | invalidArgument
  | unsupportedRecipient
  | random
  | keyDerivation
  | io
  deriving DecidableEq, Repr

def ErrorKind.heading : ErrorKind → String
  | encoding => "invalid encoding: "
  | invalidKey => "invalid key: "
  | parse => "parse error: "
  | authentication => "authentication failed: "
  | noMatchingRecipient => "no recipient record matches the given key"
  | invalidArgument => "invalid argument: "
  | unsupportedRecipient => "unsupported recipient: "
  | random => "secure random source unavailable: "
  | keyDerivation => "key derivation failed: "
  | io => "I/O error: "

inductive Side where
  | recipient
  | sender
  deriving DecidableEq, Repr

def Side.name : Side → String
  | recipient => "recipient"
  | sender => "sender"

/-- Keys that a container cannot be encrypted for. -/
inductive ForeignKey where
  | rsa
  | sharedSecret
  | password
  deriving DecidableEq, Repr

def ForeignKey.name : ForeignKey → String
  | rsa => "RSA"
  | sharedSecret => "shared secret"
  | password => "password"

inductive CryptoError where
  | point (fault : PointFault)
  | notPoint (curve : Curve)
  | keyCurve (key expected : Curve)
  | agreementCurves (own peer : Curve)
  | curveName (text : String)
  | curveOid (oid : Oid)
  | curveTag (tag : Int)
  | notRsaKey
  | zeroModulus
  | zeroExponent
  | notPublicKeyInfo
  | unusedBits
  | noNamedCurve
  | algorithm (oid : Oid)
  | notPem
  | pemLabel (label : String)
  | notPrivateKey
  | secretSize (name : String) (got : Nat)
  | wrappedKeySize (got : Nat)
  | outputTooLong
  | emptyPassword
  | shortSalt (got : Nat)
  | passwordCost
  | emptySecret
  | fileKeySize (got : Nat)
  | noRecipients
  | recipientCurve (recipient sender : Curve)
  | foreignKey (label : String) (key : ForeignKey)
  | headerTooLarge (size : Nat)
  | truncated
  | prelude
  | version (got : UInt8)
  | headerBelow (length minimum : Nat)
  | headerBeyond (length available : Nat)
  | malformedHeader
  | payloadMethod (method : Int)
  | keyMethod (method : Int)
  | noWrappedKey
  | recordKeySize (got : Nat)
  | detailsMismatch (name : String)
  | detailsType (tag : Nat)
  | headerKey (side : Side) (fault : PointFault)
  | recordSender (fault : PointFault)
  | recordNoSender
  | recordKey
  | headerMac
  | payloadTooLong
  | payloadShort (size : Nat)
  | payloadTag
  | noMatchingRecipient
  | random (text : String)
  | io (text : String)
  deriving DecidableEq, Repr

def PointFault.kind : PointFault → ErrorKind
  | length .. | leadByte _ => .encoding
  | offCurve _ => .invalidKey

def PointFault.detail : PointFault → String
  | length curve got => s!"{curve.name} TLS key must be {curve.pointSize} bytes, got {got}"
  | leadByte got =>
    let digits := String.ofList [Nat.digitChar (got.toNat / 16), Nat.digitChar (got.toNat % 16)]
    s!"TLS key must start with 0x04, got 0x{digits}"
  | offCurve curve => s!"point is not on {curve.name}"

def PointFault.message (fault : PointFault) : String := fault.kind.heading ++ fault.detail

namespace CryptoError

def kind : CryptoError → ErrorKind
  | point fault => fault.kind
  | notRsaKey | notPublicKeyInfo | unusedBits | noNamedCurve | notPem | pemLabel _ => .encoding
  | notPoint _ | curveOid _ | zeroModulus | zeroExponent | algorithm _ | notPrivateKey =>
    .invalidKey
  | curveTag _ | truncated | prelude | version _ | headerBelow .. | headerBeyond .. |
    malformedHeader | payloadMethod _ | keyMethod _ | noWrappedKey | recordKeySize _ |
    detailsMismatch _ | detailsType _ | headerKey .. => .parse
  | recordSender _ | recordNoSender | recordKey | headerMac | payloadShort _ | payloadTag =>
    .authentication
  | noMatchingRecipient => .noMatchingRecipient
  | keyCurve .. | agreementCurves .. | curveName _ | secretSize .. | wrappedKeySize _ |
    emptyPassword | shortSalt _ | passwordCost | emptySecret | fileKeySize _ | noRecipients |
    recipientCurve .. | headerTooLarge _ | payloadTooLong => .invalidArgument
  | foreignKey .. => .unsupportedRecipient
  | outputTooLong => .keyDerivation
  | random _ => .random
  | io _ => .io

def detail : CryptoError → String
  | point fault => fault.detail
  | notPoint curve => s!"not a {curve.name} point: crypto error"
  | keyCurve key expected => s!"key is on {key.name}, expected {expected.name}"
  | agreementCurves own peer => s!"ECDH between {own.name} and {peer.name} keys"
  | curveName text => s!"unknown curve '{text}'"
  | curveOid oid => s!"unsupported curve OID {oid.text}"
  | curveTag tag => s!"unsupported curve tag {tag}"
  | notRsaKey => "not a PKCS#1 RSA public key"
  | zeroModulus => "RSA modulus must be positive"
  | zeroExponent => "RSA public exponent must be positive"
  | notPublicKeyInfo => "not a SubjectPublicKeyInfo"
  | unusedBits => "public key BIT STRING has unused bits"
  | noNamedCurve => "EC key without named curve"
  | algorithm oid => s!"unsupported public key algorithm {oid.text}"
  | notPem => "invalid PEM"
  | pemLabel label => s!"unexpected PEM label '{label}', expected PUBLIC KEY"
  | notPrivateKey => "not a secp384r1 or secp256r1 private key in PKCS#8 or SEC1 PEM"
  | secretSize name got => s!"{name} must be 32 bytes, got {got}"
  | wrappedKeySize got => s!"encrypted FMK must be 32 bytes, got {got}"
  | outputTooLong => "HKDF expand failed: invalid number of blocks, too large output"
  | emptyPassword => "password is empty"
  | shortSalt got => s!"password salt must be at least 16 bytes, got {got}"
  | passwordCost => "password KDF parameters"
  | emptySecret => "shared secret is empty"
  | fileKeySize got => s!"FMK must be 32 bytes, got {got}"
  | noRecipients => "at least one recipient is required"
  | recipientCurve recipient sender =>
    s!"recipient key is on {recipient.name}, sender key is on {sender.name}"
  | foreignKey label key => s!"'{label}': {key.name} recipients are not supported"
  | headerTooLarge size => s!"header too large: {size} bytes"
  | truncated => "truncated container: missing container prelude"
  | prelude => "not a CDOC container (bad prelude)"
  | version got => s!"unsupported container version {got}, expected 2"
  | headerBelow length minimum => s!"header length {length} below minimum {minimum}"
  | headerBeyond length available =>
    s!"header length {length} plus 32-byte HMAC exceeds available {available} bytes"
  | malformedHeader => "malformed header"
  | payloadMethod method => s!"unsupported payload encryption method {method}"
  | keyMethod method => s!"unsupported FMK encryption method {method}"
  | noWrappedKey => "recipient record without encrypted FMK"
  | recordKeySize got => s!"encrypted FMK must be 32 bytes, got {got}"
  | detailsMismatch name => s!"recipient details do not match details type {name}"
  | detailsType tag => s!"unknown recipient details type {tag}"
  | headerKey side fault => s!"{side.name} public key: {fault.message}"
  | recordSender fault => s!"recipient record: sender key: {fault.message}"
  | recordNoSender => "recipient record: no sender key"
  | recordKey => "recipient record: encrypted FMK is not 32 bytes"
  | headerMac => "header HMAC mismatch"
  | payloadTooLong => "payload encryption failed: aead::Error"
  | payloadShort size => s!"encrypted payload too short: {size} bytes (minimum 28)"
  | payloadTag => "payload authentication tag mismatch"
  | noMatchingRecipient => ""
  | random text => text
  | io text => text

def message (e : CryptoError) : String := e.kind.heading ++ e.detail

end CryptoError

end SealedContainer
