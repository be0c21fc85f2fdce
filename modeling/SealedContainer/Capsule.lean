import SealedContainer.Curve
import SealedContainer.Error
import SealedContainer.Instant
import SealedContainer.Key.Ec
import SealedContainer.Key.Rsa

/-!
Key capsules: what a sender leaves with a server for the holder of a key, what the server keeps and
for how long, and which capsules it takes. These are the ones whose recipient can be known again; of
an RSA capsule the ciphertext is not looked at.
-/

namespace SealedContainer

inductive CapsuleKind where
  | ec (curve : Curve)
  | rsa
  | unknown
  deriving DecidableEq, Repr

namespace CapsuleKind

def name : CapsuleKind → String
  | ec curve => "ecc_" ++ curve.name
  | rsa => "rsa"
  | unknown => "unknown"

def known : List CapsuleKind := [ec .secp384r1, ec .secp256r1, rsa]

def ofName (name : String) : CapsuleKind := (known.find? (·.name = name)).getD unknown

end CapsuleKind

/--
A capsule in transit. For curve keys both fields are encoded points, the recipient's and the
sender's. For RSA they are the recipient's key and a ciphertext.
-/
structure Capsule where
  kind : CapsuleKind
  recipient : Option Bytes
  keyMaterial : Option Bytes
  deriving DecidableEq, Repr

structure StoredCapsule where
  id : String
  kind : CapsuleKind
  recipient : Bytes
  payload : Bytes
  expiry : Instant
  /-- Whether a later expiry was asked for. -/
  adjusted : Bool
  created : Instant
  deriving DecidableEq

namespace StoredCapsule

def expiredAt (c : StoredCapsule) (now : Instant) : Bool := decide (c.expiry < now)

def toCapsule (c : StoredCapsule) : Capsule := ⟨c.kind, some c.recipient, some c.payload⟩

end StoredCapsule

structure ExpiryPolicy where
  default : Duration
  max : Duration
  deriving DecidableEq

structure ResolvedExpiry where
  expiry : Instant
  adjusted : Bool
  deriving DecidableEq

namespace ExpiryPolicy

/-- Three years, and at most five. -/
def standard : ExpiryPolicy where
  default := ⟨1095 * 86400 * Duration.nanosPerSecond, by decide⟩
  max := ⟨1825 * 86400 * Duration.nanosPerSecond, by decide⟩

def resolve (policy : ExpiryPolicy) (requested : Option Instant) (now : Instant) :
    ResolvedExpiry :=
  let latest := now.addBounded policy.max
  match requested with
  | none => ⟨(now.addBounded policy.default).earlier latest, false⟩
  | some t => if latest < t then ⟨latest, true⟩ else ⟨t, false⟩

end ExpiryPolicy

inductive CapsuleField where
  | recipient
  | keyMaterial
  deriving DecidableEq, Repr

def CapsuleField.name : CapsuleField → String
  | recipient => "recipient_id"
  | keyMaterial => "ephemeral_key_material"

inductive CapsuleFault where
  | missing (field : CapsuleField)
  | size (field : CapsuleField) (got : Nat) (curve : Curve)
  | key (field : CapsuleField) (cause : CryptoError)
  deriving DecidableEq, Repr

def CapsuleFault.message : CapsuleFault → String
  | missing field => s!"{field.name} is missing"
  | size field got curve =>
    s!"{field.name} is {got} bytes, {curve.name} keys are {curve.pointSize}"
  | key field cause => s!"{field.name}: {cause.message}"

inductive CapsuleError where
  | invalid (fault : CapsuleFault)
  | unsupported (kind : CapsuleKind)
  | notFound
  | duplicate (id : String)
  | storage (text : String)
  | crypto (cause : CryptoError)
  deriving DecidableEq, Repr

def CapsuleError.message : CapsuleError → String
  | invalid fault => "capsule validation failed: " ++ fault.message
  | unsupported kind => "unsupported capsule type: " ++ kind.name
  | notFound => "key capsule not found"
  | duplicate id => "transaction id already in use: " ++ id
  | storage text => "capsule storage failed: " ++ text
  | crypto cause => cause.message

namespace Capsule

def required (field : CapsuleField) : Option Bytes → Except CapsuleFault Bytes
  | some bytes => .ok bytes
  | none => .error (.missing field)

def checkPoint (curve : Curve) (field : CapsuleField) (bytes : Bytes) : Except CapsuleFault Unit :=
  if bytes.length = curve.pointSize then
    match EcPublicKey.decode curve bytes with
    | .ok _ => .ok ()
    | .error fault => .error (.key field (.point fault))
  else .error (.size field bytes.length curve)

def checkEc (curve : Curve) (c : Capsule) : Except CapsuleFault Unit := do
  let recipient ← required .recipient c.recipient
  let keyMaterial ← required .keyMaterial c.keyMaterial
  checkPoint curve .recipient recipient
  checkPoint curve .keyMaterial keyMaterial

def checkRsa (c : Capsule) : Except CapsuleFault Unit := do
  match RsaPublicKey.decode (← required .recipient c.recipient) with
  | .ok _ => return
  | .error cause => throw (.key .recipient cause)

def validate (c : Capsule) : Except CapsuleError Unit :=
  match c.kind with
  | .ec curve => (checkEc curve c).mapError .invalid
  | .rsa => (checkRsa c).mapError .invalid
  | .unknown => .error (.unsupported c.kind)

def isValid (c : Capsule) : Except CapsuleError Bool :=
  match c.validate with
  | .ok () => .ok true
  | .error (.invalid _) => .ok false
  | .error e => .error e

end Capsule

end SealedContainer
