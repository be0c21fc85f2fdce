import SealedContainer.Key.Secret
import SealedContainer.Proofs.Key.Wrapping

/-!
The bytes that bind a key to its purpose. Main statement: `purposes_apart`. They are put together
without anything in between, but the seventh byte tells the kind of purpose, the length of a wrapping
purpose tells the curve of its keys, and whatever is chosen freely stands at the end.
-/

namespace SealedContainer

open Outcome

namespace Purpose

/-- A wrapping key is only derived for keys on one curve, because others agree on no secret. -/
def OnOneCurve : Purpose → Prop
  | wrapping recipient sender => recipient.curve = sender.curve
  | content | headerMac | password _ => True

/-- The byte behind the six that all purposes begin with. -/
def mark : Purpose → UInt8
  | wrapping .. => 0x6b
  | content => 0x63
  | headerMac => 0x68
  | password _ => 0x70

theorem info_wrapping (recipient sender : EcPublicKey) :
    (wrapping recipient sender).info =
      Bytes.ofString "CDOC20kekXOR" ++ (recipient.encode ++ sender.encode) := by
  simp only [info, infoParts, List.flatten_cons, List.flatten_nil, List.append_nil]
  rw [← List.append_assoc]
  rfl

theorem info_password (label : String) :
    (password label).info = Bytes.ofString "CDOC20password" ++ Bytes.ofString label := by
  simp only [info, infoParts, List.flatten_cons, List.flatten_nil, List.append_nil]

theorem getElem?_info (p : Purpose) : p.info[6]? = some p.mark := by
  cases p with
  | wrapping recipient sender =>
      rw [info_wrapping]
      rfl
  | content => decide
  | headerMac => decide
  | password label =>
      rw [info_password]
      rfl

/-- The encodings of two keys on one curve are as long as each other. -/
theorem wrapping_injective {recipient sender recipient' sender' : EcPublicKey}
    (first : recipient.curve = sender.curve) (second : recipient'.curve = sender'.curve)
    (same : (wrapping recipient sender).info = (wrapping recipient' sender').info) :
    recipient = recipient' ∧ sender = sender' := by
  rw [info_wrapping, info_wrapping] at same
  have keys := List.append_cancel_left same
  have sizes := congrArg List.length keys
  simp only [List.length_append, EcPublicKey.length_encode, ← first, ← second] at sizes
  have size : recipient.encode.length = recipient'.encode.length := by
    rw [EcPublicKey.length_encode, EcPublicKey.length_encode]
    omega
  have parts := List.append_inj keys size
  exact ⟨EcPublicKey.encode_injective parts.1, EcPublicKey.encode_injective parts.2⟩

theorem password_injective {label label' : String}
    (same : (password label).info = (password label').info) : label = label' := by
  rw [info_password, info_password] at same
  have read := congrArg Bytes.toString? (List.append_cancel_left same)
  simpa using read

theorem info_injective {p q : Purpose} (first : p.OnOneCurve) (second : q.OnOneCurve)
    (same : p.info = q.info) : p = q := by
  have marks : p.mark = q.mark := by
    have bytes := getElem?_info p
    rw [same, getElem?_info q] at bytes
    exact (Option.some.inj bytes).symm
  cases p with
  | wrapping recipient sender =>
      cases q with
      | wrapping recipient' sender' =>
          have keys := wrapping_injective first second same
          rw [keys.1, keys.2]
      | _ => simp [mark] at marks
  | content =>
      cases q with
      | content => rfl
      | _ => simp [mark] at marks
  | headerMac =>
      cases q with
      | headerMac => rfl
      | _ => simp [mark] at marks
  | password label =>
      cases q with
      | password label' => rw [password_injective same]
      | _ => simp [mark] at marks

/--
A wrapping key is derived exactly for two keys on one curve, by the sender and by the recipient. Over
these purposes, both keys of a container and all labels of a password, no two have the same bytes.
-/
theorem purposes_apart :
    (∀ (sender : EcKeyPair) (recipient : EcPublicKey),
      (∃ key, senderWrappingKey sender recipient = .ok key) ↔
        (wrapping recipient sender.publicKey).OnOneCurve) ∧
    (∀ (recipient : EcKeyPair) (sender : EcPublicKey),
      (∃ key, recipientWrappingKey recipient sender = .ok key) ↔
        (wrapping recipient.publicKey sender).OnOneCurve) ∧
    Function.Injective fun request : { p : Purpose // p.OnOneCurve } => request.val.info := by
  refine ⟨?sent, ?received, ?apart⟩
  case sent =>
    intro sender recipient
    exact sharedWrappingKey_isOk_iff sender recipient recipient sender.publicKey
  case received =>
    intro recipient sender
    apply (sharedWrappingKey_isOk_iff recipient sender recipient.publicKey sender).trans
    exact eq_comm
  case apart =>
    intro p q same
    exact Subtype.ext (info_injective p.property q.property same)

/-- An empty label is a label of its own. -/
example : (password "").info ≠ headerMac.info ∧ (password "").info ≠ content.info := by decide

end Purpose

end SealedContainer
