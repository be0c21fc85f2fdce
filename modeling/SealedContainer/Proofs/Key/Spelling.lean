import SealedContainer.Key.Public
import SealedContainer.Proofs.Asn1.Pem
import SealedContainer.Proofs.Curve.Root
import SealedContainer.Proofs.Key.Rsa
import SealedContainer.Proofs.Server.Identity

/-!
The spellings of a public key. Main statement: `every_spelling`. Written with its algorithm, as
bytes, in base64 or in a text block, a key is read back as itself, and so is a curve key in
compressed form and an RSA key in a block of its own.
-/

namespace SealedContainer

open Bytes Der Outcome

namespace Der

theorem length_lengthBytes_le {n : Nat} (small : n ≤ maxLength) : (lengthBytes n).length ≤ 5 := by
  unfold lengthBytes
  split
  · exact Nat.succ_le_succ (Nat.zero_le 4)
  · exact Nat.succ_le_succ (length_ofNatMinimal_le_four small)

theorem length_encode_le (tag : UInt8) {content : Bytes} (small : content.length ≤ maxLength) :
    (encode tag content).length ≤ content.length + 6 := by
  have few := length_lengthBytes_le small
  simp only [encode, Element.encode, List.length_cons, List.length_append]
  omega

theorem oid?_oid {o : Oid} (known : Oid.ofBytes? o.encoded = some o) (rest : Bytes) :
    oid? (oid o ++ rest) = some (o, rest) := by
  have short : o.encoded.length ≤ maxLength := by
    simp only [Oid.ofBytes?, Option.ite_none_right_eq_some] at known
    exact Nat.le_trans known.1.2.1 (by decide)
  have found : tagged? Tag.oid (oid o ++ rest) = some (o.encoded, rest) :=
    tagged?_eq_some_iff.mpr ⟨by decide, short, rfl⟩
  simp only [oid?, found, known, Option.bind_eq_bind, Option.bind_some]
  rfl

end Der

namespace PublicKey

section Info

variable {algorithm : Oid} {e : Element} {key : Bytes}
  (known : Oid.ofBytes? algorithm.encoded = some algorithm) (tagged : isTag e.tag = true)

include known tagged

theorem read?_oid_element (small : e.content.length ≤ maxLength) :
    Algorithm.read? (oid algorithm ++ e.encode) = some ⟨algorithm, some e⟩ := by
  have parameter : element? e.encode = some (e, []) :=
    element?_eq_some_iff.mpr ⟨tagged, small, (List.append_nil _).symm⟩
  have there : e.encode ≠ [] := List.cons_ne_nil _ _
  simp only [Algorithm.read?, oid?_oid known, if_neg there, parameter, Option.bind_eq_bind,
    Option.bind_some]
  rfl

theorem parts?_info (small : (info algorithm e.encode key).length ≤ maxLength) :
    parts? (info algorithm e.encode key) = some (⟨algorithm, some e⟩, 0, key) := by
  have outer := Nat.le_trans (length_encode_ge Tag.sequence _) small
  rw [List.length_append] at outer
  have inner := length_encode_ge Tag.sequence (oid algorithm ++ e.encode)
  rw [List.length_append] at inner
  have content : e.content.length ≤ e.encode.length := length_encode_ge e.tag e.content
  have whole := only?_eq_some_iff.mpr ⟨by decide, small, rfl⟩
  have front : tagged? Tag.sequence (encode Tag.sequence (oid algorithm ++ e.encode) ++
      bitString key) = some (oid algorithm ++ e.encode, bitString key) :=
    tagged?_eq_some_iff.mpr ⟨by decide, by rw [List.length_append]; omega, rfl⟩
  have back : only? Tag.bitString (bitString key) = some (0 :: key) :=
    only?_eq_some_iff.mpr ⟨by decide, by omega, rfl⟩
  have bits : bits? (0 :: key) = some (0, key) := by simp [bits?]
  simp only [parts?, whole, front, read?_oid_element known tagged (by omega), back, bits,
    Option.bind_eq_bind, Option.bind_some]
  rfl

end Info

theorem toInfo?_eq_some_iff {key : PublicKey} {bytes : Bytes} :
    key.toInfo? = some bytes ↔ key.toInfo.length ≤ maxLength ∧ bytes = key.toInfo := by
  simp [toInfo?, eq_comm]

theorem ofInfo_point {point : Bytes} {key : EcPublicKey}
    (small : (info ecAlgorithm (oid key.curve.oid) point).length ≤ maxLength)
    (read : EcPublicKey.decodeAny? key.curve point = some key) :
    ofInfo (info ecAlgorithm (oid key.curve.oid) point) = .ok (.ec key) := by
  have named : Oid.ofBytes? key.curve.oid.encoded = some key.curve.oid := by
    cases key.curve <;> decide +kernel
  have parts : parts? (info ecAlgorithm (oid key.curve.oid) point) =
      some (⟨ecAlgorithm, some ⟨Tag.oid, key.curve.oid.encoded⟩⟩, 0, point) :=
    parts?_info (by decide +kernel) (by simp [isTag, Tag.oid]) small
  have curveOid : Algorithm.curveOid? ⟨ecAlgorithm, some ⟨Tag.oid, key.curve.oid.encoded⟩⟩ =
      some key.curve.oid := by
    simp only [Algorithm.curveOid?, Option.bind_eq_bind, Option.bind_some, if_true, named]
  simp only [ofInfo, parts, ne_eq, not_true, if_false, if_true, curveOid, Curve.ofOid?_oid,
    EcPublicKey.ofPoint, read]
  rfl

theorem length_encode_le_toInfo (key : RsaPublicKey) :
    key.encode.length ≤ (toInfo (.rsa key)).length := by
  have outer := length_encode_ge Tag.sequence (encode Tag.sequence
    (oid rsaAlgorithm ++ encode Tag.null []) ++ bitString key.encode)
  have inner := length_encode_ge Tag.bitString (0 :: key.encode)
  rw [List.length_append] at outer
  rw [List.length_cons] at inner
  exact Nat.le_trans (Nat.le_trans (Nat.le_of_succ_le inner) (Nat.le_add_left _ _)) outer

theorem ofInfo_toInfo {key : PublicKey} (small : key.toInfo.length ≤ maxLength) :
    ofInfo key.toInfo = .ok key := by
  cases key with
  | ec key => exact ofInfo_point small key.decodeAny?_encode
  | rsa key =>
      have parts : parts? (toInfo (.rsa key)) =
          some (⟨rsaAlgorithm, some ⟨Tag.null, []⟩⟩, 0, key.encode) :=
        parts?_info (by decide +kernel) (by decide) small
      have short := Nat.le_trans (length_encode_le_toInfo key) small
      have read := RsaPublicKey.decode_eq_ok_iff.mpr
        (RsaPublicKey.encode?_eq_some_iff.mpr ⟨short, rfl⟩)
      simp only [ofInfo, parts, ne_eq, not_true, if_false, read,
        if_neg (show rsaAlgorithm ≠ ecAlgorithm by decide), if_true]
      rfl

theorem length_info_le {algorithm : Oid} {parameters key : Bytes}
    (front : (encode Tag.sequence (oid algorithm ++ parameters)).length ≤ 30)
    (small : key.length + 43 ≤ maxLength) :
    (info algorithm parameters key).length ≤ key.length + 43 := by
  have whole : (0 :: key).length ≤ maxLength := Nat.le_trans (Nat.add_le_add_left (by decide) _) small
  have bits : (bitString key).length ≤ key.length + 1 + 6 := length_encode_le Tag.bitString whole
  have content : (encode Tag.sequence (oid algorithm ++ parameters) ++ bitString key).length ≤
      key.length + 37 := by
    rw [List.length_append]
    omega
  exact Nat.le_trans (length_encode_le Tag.sequence (by omega)) (by omega)

theorem length_info_point_le {curve : Curve} {point : Bytes} (short : point.length ≤ 97) :
    (info ecAlgorithm (oid curve.oid) point).length ≤ maxLength := by
  have limit : 97 + 43 ≤ maxLength := by decide
  have front : (encode Tag.sequence (oid ecAlgorithm ++ oid curve.oid)).length ≤ 30 := by
    cases curve <;> decide +kernel
  exact Nat.le_trans (length_info_le front (by omega)) (by omega)

def BlockRead (label : String) (bytes : Bytes) (key : PublicKey) : Prop :=
  ∀ front back : String, (∀ c ∈ front.toList ++ back.toList, isBlank c = true) →
    ofPem (front ++ Pem.encode label bytes ++ back) = .ok key

/-- Bytes are read as the key by themselves, in a header with the identity of a sender, and in a
text block. -/
def Read (bytes : Bytes) (key : PublicKey) : Prop :=
  ofInfo bytes = .ok key ∧
    (∀ front back, (∀ b ∈ front ++ back, IdentitySource.isBlankByte b = true) →
      IdentitySource.keyOfHeader? (front ++ ofString (Base64.encodeText bytes) ++ back) = some key) ∧
    BlockRead "PUBLIC KEY" bytes key

theorem trimmed_block {label front back : String} (bytes : Bytes)
    (blank : ∀ c ∈ front.toList ++ back.toList, isBlank c = true) :
    trimmed (front ++ Pem.encode label bytes ++ back) = Pem.block label bytes := by
  have text : (front ++ Pem.encode label bytes ++ back).toList =
      front.toList ++ Pem.block label bytes ++ '\n' :: back.toList := by
    rw [String.toList_append, String.toList_append, Pem.toList_encode]
    simp only [List.append_assoc, List.singleton_append]
  rw [trimmed, text]
  apply trimBoth_of_ends
  · simp only [List.mem_append, List.mem_cons] at blank ⊢
    rintro c (before | rfl | behind)
    · exact blank c (.inl before)
    · rfl
    · exact blank c (.inr behind)
  · rintro c ⟨⟩
    decide
  · intro c last
    have dash : (Pem.block label bytes).getLast? = some '-' := by
      rw [Pem.block, List.getLast?_append]
      rfl
    rw [dash] at last
    cases last
    decide

theorem decode?_trimmed {label front back : String} {bytes : Bytes}
    (named : Pem.IsLabel label.toList) (nonempty : bytes ≠ [])
    (blank : ∀ c ∈ front.toList ++ back.toList, isBlank c = true) :
    Pem.decode? (trimmed (front ++ Pem.encode label bytes ++ back)) = some (label, bytes) := by
  rw [trimmed_block bytes blank, Pem.decode?_block named nonempty]

theorem isLabel_publicKey : Pem.IsLabel "PUBLIC KEY".toList := fun _ => rfl

theorem isLabel_rsaPublicKey : Pem.IsLabel "RSA PUBLIC KEY".toList := fun _ => rfl

theorem read_of_ofInfo {bytes : Bytes} {key : PublicKey} (read : ofInfo bytes = .ok key) :
    Read bytes key := by
  refine ⟨read, ?_, ?_⟩
  · intro front back blank
    exact IdentitySource.keyOfHeader?_eq_some_iff.mpr ⟨front, bytes, back, rfl, blank, read⟩
  · intro front back blank
    have nonempty : bytes ≠ [] := by
      rintro rfl
      cases read
    simp only [ofPem, decode?_trimmed isLabel_publicKey nonempty blank, if_true, read]

theorem ofPem_toPem (key : EcPublicKey) : ofPem (toPem (.ec key)) = .ok (.ec key) := by
  have size : key.curve.pointSize ≤ 97 := by cases key.curve <;> decide
  have small : (toInfo (.ec key)).length ≤ maxLength :=
    length_info_point_le (by rwa [EcPublicKey.length_encode])
  have read := (read_of_ofInfo (ofInfo_toInfo small)).2.2 "" "" (by simp)
  rwa [String.empty_append, String.append_empty] at read

theorem blockRead_rsa {key : RsaPublicKey} {bytes : Bytes} (written : key.encode? = some bytes) :
    BlockRead "RSA PUBLIC KEY" bytes (.rsa key) := by
  intro front back blank
  have read := RsaPublicKey.decode_eq_ok_iff.mpr written
  have nonempty : bytes ≠ [] := by
    rintro rfl
    cases read
  simp only [ofPem, decode?_trimmed isLabel_rsaPublicKey nonempty blank, read,
    if_neg (show "RSA PUBLIC KEY" ≠ "PUBLIC KEY" by decide), if_true]
  rfl

/--
However a public key is spelled, it is the same key. Written with its algorithm it is read back, as
it is, in base64 with white space around it as senders are named by, and in a text block with white
space around it. A curve key can always be written so, and may as well be in compressed form; an RSA
key can unless it fills the limit for what is written. The encoding of an RSA key in a block of its
own is read as the key, too.
-/
theorem every_spelling (key : PublicKey) :
    (∀ bytes, key.toInfo? = some bytes → Read bytes key) ∧
      (∀ own, key = .ec own → key.toInfo?.isSome = true ∧
        Read (info ecAlgorithm (oid own.curve.oid) own.compressed) key) ∧
      ∀ own, key = .rsa own →
        (own.encode.length + 43 ≤ maxLength → key.toInfo?.isSome = true) ∧
        ∀ bytes, own.encode? = some bytes → BlockRead "RSA PUBLIC KEY" bytes key := by
  refine ⟨?_, ?_, ?_⟩
  · intro bytes written
    obtain ⟨small, rfl⟩ := toInfo?_eq_some_iff.mp written
    exact read_of_ofInfo (ofInfo_toInfo small)
  · rintro own rfl
    have size : own.curve.fieldSize ≤ 48 := by cases own.curve <;> decide
    have long : own.encode.length ≤ 97 := by
      rw [EcPublicKey.length_encode, Curve.pointSize]
      omega
    have short : own.compressed.length ≤ 97 := by
      rw [EcPublicKey.compressed, List.length_cons, EcPublicKey.length_coordinate]
      omega
    have small : (toInfo (.ec own)).length ≤ maxLength := length_info_point_le long
    refine ⟨by simp [toInfo?, small], ?_⟩
    exact read_of_ofInfo (ofInfo_point (length_info_point_le short) own.decodeAny?_compressed)
  · rintro own rfl
    refine ⟨?_, fun bytes => blockRead_rsa⟩
    intro small
    have front : (encode Tag.sequence (oid rsaAlgorithm ++ encode Tag.null [])).length ≤ 30 := by
      decide +kernel
    have whole : (toInfo (.rsa own)).length ≤ maxLength :=
      Nat.le_trans (length_info_le front small) small
    simp [toInfo?, whole]

end PublicKey

end SealedContainer
