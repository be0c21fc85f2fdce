import SealedContainer.Bytes.Hex
import SealedContainer.Capsule
import SealedContainer.Capsule.Store
import SealedContainer.Key.Public

/-!
What a capsule server does: it stores capsules under fresh ids, gives each to its recipient alone,
and removes those that are expired. An id is two letters and the digits of a random number.
-/

namespace SealedContainer.TransactionId

def mark : String := "KC"

def entropySize : Nat := 16

def ofBytes (entropy : Bytes) : String := mark ++ Hex.encode entropy

def isWellFormed (id : String) : Bool :=
  let digits := id.toList.drop mark.length
  mark.toList.isPrefixOf id.toList && digits.length == 2 * entropySize &&
    digits.all fun c => (Hex.digit? c).isSome

end SealedContainer.TransactionId

namespace SealedContainer

structure Receipt where
  id : String
  expiry : Instant
  adjusted : Bool
  deriving DecidableEq

/-- Random bytes for ids: what the n-th draw gives. -/
abbrev Draws := Nat → Except CryptoError Bytes

namespace Capsule

/-- How often another id is tried after one that is taken. -/
def maxRetries : Nat := 2

def record (c : Capsule) (resolved : ResolvedExpiry) (now : Instant) (id : String) :
    StoredCapsule where
  id := id
  kind := c.kind
  recipient := c.recipient.getD []
  payload := c.keyMaterial.getD []
  expiry := resolved.expiry
  adjusted := resolved.adjusted
  created := now

/-- Inserts under the n-th id drawn, or the first one after it that is not taken. -/
def insertFresh (record : String → StoredCapsule) (draws : Draws) (retries n : Nat) (s : Storage) :
    Storage × Except CapsuleError StoredCapsule :=
  match draws n with
  | .error e => (s, .error (.crypto e))
  | .ok entropy =>
    let entry := record (TransactionId.ofBytes entropy)
    match s.insert entry, retries with
    | (s, .ok ()), _ => (s, .ok entry)
    | (s, .error (.duplicate _)), retries + 1 => insertFresh record draws retries (n + 1) s
    | (s, .error e), _ => (s, .error e)

def store (c : Capsule) (policy : ExpiryPolicy) (requested : Option Instant) (now : Instant)
    (draws : Draws) (s : Storage) : Storage × Except CapsuleError Receipt :=
  match c.validate with
  | .error e => (s, .error e)
  | .ok () =>
    let record := c.record (policy.resolve requested now) now
    let (s, result) := insertFresh record draws maxRetries 0 s
    (s, result.map fun entry => ⟨entry.id, entry.expiry, entry.adjusted⟩)

end Capsule

namespace StoredCapsule

def isFor (c : StoredCapsule) : PublicKey → Bool
  | .ec key => c.kind == .ec key.curve && c.recipient == key.encode
  | .rsa key => c.kind == .rsa && key.encode? == some c.recipient

end StoredCapsule

namespace Storage

/-- The capsule under an id, for its recipient. To others it is as if there were none. -/
def fetch (s : Storage) (id : String) (caller : PublicKey) :
    Storage × Except CapsuleError Capsule :=
  if TransactionId.isWellFormed id then
    let (s, found) := s.find id
    (s, do
      match ← found with
      | some c => if c.isFor caller then return c.toCapsule else throw .notFound
      | none => throw .notFound)
  else (s, .error .notFound)

end Storage

end SealedContainer
