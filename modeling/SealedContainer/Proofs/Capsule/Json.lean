import SealedContainer.Capsule.Json
import SealedContainer.Proofs.Bytes.Base64
import SealedContainer.Proofs.Instant.Text
import SealedContainer.Proofs.Json.Text

/-!
Capsules and stored records survive being written as JSON. Main statement:
`StoredCapsule.json_read_back`.
-/

namespace SealedContainer

open Json

theorem CapsuleKind.ofJson_name (kind : CapsuleKind) :
    ofJson (string (some kind.name)) = .ok kind := by
  have read : ofName kind.name = kind := by
    cases kind with
    | ec curve => cases curve <;> decide
    | rsa => decide
    | unknown => decide
  rw [ofJson, read]

namespace Capsule

theorem bytesOfJson_encodeText (bytes : Bytes) :
    bytesOfJson (string (some (Base64.encodeText bytes))) = .ok bytes := by
  have read : Base64.decodeText (Base64.encodeText bytes) = some bytes := by
    rw [Base64.decodeText, Base64.encodeText, String.toList_ofList, Base64.decode_encode]
  simp only [bytesOfJson, asText, bind, Except.bind, read]
  rfl

def foundBytes : Option Bytes → Json
  | some bytes => string (some (Base64.encodeText bytes))
  | none => null

theorem reads_printBytesOrNull (bytes : Option Bytes) :
    Reads (printBytesOrNull bytes) (foundBytes bytes) := by
  cases bytes with
  | none => exact reads_printNull
  | some bytes => exact reads_printText (Base64.encodeText bytes)

theorem bytesOrNull_foundBytes (bytes : Option Bytes) : bytesOrNull (foundBytes bytes) = .ok bytes := by
  cases bytes with
  | none => rfl
  | some bytes =>
      simp only [foundBytes, bytesOrNull, bytesOfJson_encodeText]
      rfl

theorem parse_print (c : Capsule) : parse (Bytes.ofString c.print) = .ok c := by
  have found : parse (Bytes.ofString c.print) = ofJson (object _) :=
    read_printObject ofJson (.ofText "capsule_type" c.kind.name) [
      ⟨"recipient_id", _, _, reads_printBytesOrNull c.recipient⟩,
      ⟨"ephemeral_key_material", _, _, reads_printBytesOrNull c.keyMaterial⟩]
  rw [found]
  simp only [ofJson, foldFields, List.map_cons, List.map_nil, Field.member, Field.ofText,
    List.foldlM_cons, List.foldlM_nil, memberName, bind, Except.bind, Draft.add, once,
    CapsuleKind.ofJson_name, bytesOrNull_foundBytes]
  rfl

end Capsule

namespace StoredCapsule

theorem instantOfJson_text (t : Instant) : instantOfJson (string (some t.text)) = .ok t := by
  simp only [instantOfJson, asText, bind, Except.bind, t.parseStored_text]
  rfl

theorem parse_print (r : StoredCapsule) : parse (Bytes.ofString r.print) = .ok r := by
  have found : parse (Bytes.ofString r.print) = ofJson (object _) :=
    read_printObject ofJson (.ofText "transaction_id" r.id) [
      .ofText "capsule_type" r.kind.name,
      .ofText "recipient" (Base64.encodeText r.recipient),
      .ofText "payload" (Base64.encodeText r.payload),
      .ofText "expiry_time" r.expiry.text,
      ⟨"expiry_time_adjusted", _, _, reads_printBool r.adjusted⟩,
      .ofText "created_at" r.created.text]
  rw [found]
  simp only [ofJson, foldFields, List.map_cons, List.map_nil, Field.member, Field.ofText,
    List.foldlM_cons, List.foldlM_nil, memberName, bind, Except.bind, Draft.add, once, asText, asBool,
    CapsuleKind.ofJson_name, Capsule.bytesOfJson_encodeText, instantOfJson_text]
  rfl

/--
Every capsule and every stored record is what is read of its text. A record that is read back is
handed out as its capsule would be, had that been written and read instead.
-/
theorem json_read_back :
    (∀ c : Capsule, Capsule.parse (Bytes.ofString c.print) = .ok c) ∧
      (∀ r : StoredCapsule, parse (Bytes.ofString r.print) = .ok r) ∧
      ∀ r : StoredCapsule, toCapsule <$> parse (Bytes.ofString r.print) =
        Capsule.parse (Bytes.ofString r.toCapsule.print) := by
  refine ⟨Capsule.parse_print, parse_print, fun r => ?_⟩
  rw [parse_print, Capsule.parse_print]
  rfl

end StoredCapsule

end SealedContainer
