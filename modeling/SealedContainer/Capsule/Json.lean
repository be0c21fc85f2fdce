import SealedContainer.Bytes.Base64
import SealedContainer.Capsule
import SealedContainer.Instant.Text
import SealedContainer.Json.Parser
import SealedContainer.Json

/-!
Capsules as JSON records, byte strings in base 64.
-/

namespace SealedContainer

namespace CapsuleKind

/-- A kind is given by its name, or by an object whose one member has that name and no value. -/
def ofJson : Json → Except JsonFault CapsuleKind
  | .string (some name) => .ok (ofName name)
  | .object ((name, value) :: more) => do
    let name ← name.asText
    match value, more with
    | .null, [] => return ofName name
    | .null, _ => throw .malformed
    | other, _ => throw other.unexpected
  | _ => .error .malformed

end CapsuleKind

namespace Capsule

def bytesOfJson (value : Json) : Except JsonFault Bytes := do
  match Base64.decodeText (← value.asText) with
  | some bytes => return bytes
  | none => throw .mismatch

def bytesOrNull : Json → Except JsonFault (Option Bytes)
  | .null => .ok none
  | value => some <$> bytesOfJson value

structure Draft where
  kind : Option CapsuleKind
  recipient : Option (Option Bytes)
  keyMaterial : Option (Option Bytes)

def fieldNames : List String := ["capsule_type", "recipient_id", "ephemeral_key_material"]

def Draft.add (d : Draft) (name : String) (value : Json) : Except JsonFault Draft := do
  match name with
  | "capsule_type" => return { d with kind := ← Json.once d.kind (CapsuleKind.ofJson value) }
  | "recipient_id" => return { d with recipient := ← Json.once d.recipient (bytesOrNull value) }
  | "ephemeral_key_material" =>
    return { d with keyMaterial := ← Json.once d.keyMaterial (bytesOrNull value) }
  | _ =>
    value.ignore
    return d

def ofJson (value : Json) : Except JsonFault Capsule := do
  let d ← Json.foldFields fieldNames Draft.add ⟨none, none, none⟩ value
  return ⟨← Json.given d.kind, d.recipient.getD none, d.keyMaterial.getD none⟩

def parse (text : Bytes) : Except JsonFault Capsule := Json.read ofJson text

def printBytes (bytes : Bytes) : List Char := Json.printText (Base64.encodeText bytes)

def printBytesOrNull : Option Bytes → List Char
  | some bytes => printBytes bytes
  | none => Json.printNull

def print (c : Capsule) : String := String.ofList (Json.printObject [
  ("capsule_type", Json.printText c.kind.name),
  ("recipient_id", printBytesOrNull c.recipient),
  ("ephemeral_key_material", printBytesOrNull c.keyMaterial)])

end Capsule

namespace StoredCapsule

def instantOfJson (value : Json) : Except JsonFault Instant := do
  match Instant.parseStored (← value.asText) with
  | some t => return t
  | none => throw .mismatch

structure Draft where
  id : Option String
  kind : Option CapsuleKind
  recipient : Option Bytes
  payload : Option Bytes
  expiry : Option Instant
  adjusted : Option Bool
  created : Option Instant

def fieldNames : List String :=
  ["transaction_id", "capsule_type", "recipient", "payload", "expiry_time", "expiry_time_adjusted",
    "created_at"]

def Draft.add (d : Draft) (name : String) (value : Json) : Except JsonFault Draft := do
  match name with
  | "transaction_id" => return { d with id := ← Json.once d.id value.asText }
  | "capsule_type" => return { d with kind := ← Json.once d.kind (CapsuleKind.ofJson value) }
  | "recipient" =>
    return { d with recipient := ← Json.once d.recipient (Capsule.bytesOfJson value) }
  | "payload" => return { d with payload := ← Json.once d.payload (Capsule.bytesOfJson value) }
  | "expiry_time" => return { d with expiry := ← Json.once d.expiry (instantOfJson value) }
  | "expiry_time_adjusted" => return { d with adjusted := ← Json.once d.adjusted value.asBool }
  | "created_at" => return { d with created := ← Json.once d.created (instantOfJson value) }
  | _ =>
    value.ignore
    return d

def ofJson (value : Json) : Except JsonFault StoredCapsule := do
  let d ← Json.foldFields fieldNames Draft.add ⟨none, none, none, none, none, none, none⟩ value
  return ⟨← Json.given d.id, ← Json.given d.kind, ← Json.given d.recipient, ← Json.given d.payload,
    ← Json.given d.expiry, ← Json.given d.adjusted, ← Json.given d.created⟩

def parse (text : Bytes) : Except JsonFault StoredCapsule := Json.read ofJson text

def print (c : StoredCapsule) : String := String.ofList (Json.printObject [
  ("transaction_id", Json.printText c.id),
  ("capsule_type", Json.printText c.kind.name),
  ("recipient", Capsule.printBytes c.recipient),
  ("payload", Capsule.printBytes c.payload),
  ("expiry_time", Json.printText c.expiry.text),
  ("expiry_time_adjusted", Json.printBool c.adjusted),
  ("created_at", Json.printText c.created.text)])

end StoredCapsule

end SealedContainer
