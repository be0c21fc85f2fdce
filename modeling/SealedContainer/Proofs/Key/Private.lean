import SealedContainer.Key.Private
import SealedContainer.Proofs.Key.Pair
import SealedContainer.Proofs.Key.Spelling
import SealedContainer.Proofs.Key.Wrapping

/-!
Private keys are read back. Main statements: `wrapped_pair_read_back` of the wrapped form, which
names its curve, and `plain_pair_read` of the form without a wrapping. There the curve is told from
the public key alone: where that is left out, a scalar of either curve is taken for one of the larger
curve.
-/

namespace SealedContainer

open Bytes Der

namespace Der

theorem small?_natural (b : UInt8) (rest : Bytes) :
    small? (natural [b] ++ rest) = some (b, rest) := by
  have shape : IsMagnitude [b] := by
    by_cases zero : b = 0
    · exact .inl (by rw [zero])
    · exact .inr (by simpa using zero)
  have few : (naturalContent [b]).length ≤ maxLength := by
    unfold naturalContent
    dsimp only
    split <;> exact Nat.le_of_ble_eq_true rfl
  have read := natural?_eq_some_iff.mpr ⟨shape, few, Eq.refl (natural [b] ++ rest)⟩
  simp only [small?, read, Option.bind_eq_bind, Option.bind_some]
  rfl

end Der

namespace EcKeyPair

section Fields

variable {number : Nat} {tag : UInt8} {content : Bytes}

theorem contextField?_encode (known : isTag tag = true) (context : 0x80 ≤ tag ∧ tag < 0xc0)
    (least : number ≤ tag.toNat % 32) (small : content.length ≤ maxLength) (rest : Bytes) :
    contextField? number (encode tag content ++ rest) =
      if tag.toNat % 32 = number then some (some ⟨tag, content⟩, rest)
      else some (none, encode tag content ++ rest) := by
  have read : element? (encode tag content ++ rest) = some (⟨tag, content⟩, rest) :=
    element?_eq_some_iff.mpr ⟨known, small, rfl⟩
  have front : encode tag content ++ rest =
      tag :: (lengthBytes content.length ++ content ++ rest) := rfl
  have kept : skipFields ((encode tag content ++ rest).length + 1) number
      (encode tag content ++ rest) = some (encode tag content ++ rest) := by
    rw [front]
    simp only [skipFields, known, Bool.not_true, Bool.false_eq_true, if_false,
      if_neg (fun below : _ ∧ _ ∧ _ => absurd below.2.2 (Nat.not_lt.mpr least))]
  unfold contextField?
  rw [kept]
  rw [front] at read ⊢
  by_cases same : tag.toNat % 32 = number
  · simp only [Option.bind_eq_bind, Option.bind_some, read, same,
      if_pos (⟨context.1, context.2, trivial⟩ : _ ∧ _ ∧ True), if_true]
    rfl
  · simp only [Option.bind_eq_bind, Option.bind_some, if_neg same,
      if_neg (fun here : _ ∧ _ ∧ _ => same here.2.2)]
    rfl

theorem contextField?_nil (number : Nat) : contextField? number [] = some (none, []) := rfl

theorem unwrap?_encode {number : UInt8} (known : isTag tag = true)
    (small : (encode tag content).length ≤ maxLength) :
    unwrap? number tag ⟨Tag.wrapped number, encode tag content⟩ = some content := by
  rw [unwrap?, if_pos rfl]
  exact only?_eq_some_iff.mpr ⟨known, small, rfl⟩

theorem wholeBits?_whole (bytes : Bytes) : wholeBits? (0 :: bytes) = some bytes := by
  simp [wholeBits?, bits?]

def curveField (named : Option Curve) : Bytes :=
  named.elim [] fun c => encode (Tag.wrapped 0) (oid c.oid)

def publicField (key : Option Bytes) : Bytes :=
  key.elim [] fun bytes => encode (Tag.wrapped 1) (bitString bytes)

def plainKey (scalar : Bytes) (named : Option Curve) (key : Option Bytes) : Bytes :=
  encode Tag.sequence (natural [1] ++
    (encode Tag.octetString scalar ++ (curveField named ++ publicField key)))

def IsShort (bytes : Bytes) : Prop := bytes.length ≤ 97

theorem length_oid_le (c : Curve) : (oid c.oid).length ≤ 10 := by
  cases c <;> decide

theorem length_curveField_le (named : Option Curve) : (curveField named).length ≤ 16 := by
  cases named with
  | none => decide
  | some c => cases c <;> decide

theorem length_bitString_le {bytes : Bytes} (short : IsShort bytes) :
    (bitString bytes).length ≤ 104 := by
  have content : (0 :: bytes).length ≤ 98 := Nat.succ_le_succ short
  exact Nat.le_trans (length_encode_le Tag.bitString (Nat.le_trans content (by decide)))
    (Nat.add_le_add_right content 6)

theorem length_publicField_le {key : Option Bytes} (short : ∀ bytes ∈ key, IsShort bytes) :
    (publicField key).length ≤ 110 := by
  cases key with
  | none => decide
  | some bytes =>
      have content := length_bitString_le (short bytes rfl)
      exact Nat.le_trans (length_encode_le (Tag.wrapped 1) (Nat.le_trans content (by decide)))
        (Nat.add_le_add_right content 6)

theorem length_plainKey_le {scalar : Bytes} {key : Option Bytes} (short : IsShort scalar)
    (keyShort : ∀ bytes ∈ key, IsShort bytes) (named : Option Curve) :
    (plainKey scalar named key).length ≤ 255 := by
  have version : (natural [1]).length = 3 := rfl
  have wrapped : (encode Tag.octetString scalar).length ≤ 103 :=
    Nat.le_trans (length_encode_le _ (Nat.le_trans short (by decide))) (Nat.add_le_add_right short 6)
  have first := length_curveField_le named
  have second := length_publicField_le keyShort
  have content : (natural [1] ++ (encode Tag.octetString scalar ++
      (curveField named ++ publicField key))).length ≤ 232 := by
    simp only [List.length_append]
    omega
  exact Nat.le_trans (length_encode_le _ (Nat.le_trans content (by decide))) (by omega)

theorem contextField?_publicField {key : Option Bytes} (short : ∀ bytes ∈ key, IsShort bytes)
    {number : Nat} (least : number ≤ 1) :
    contextField? number (publicField key) =
      if number = 1 then
        some (key.map fun bytes => ⟨Tag.wrapped 1, bitString bytes⟩, [])
      else some (none, publicField key) := by
  cases key with
  | none => split <;> rfl
  | some bytes =>
      have content : (bitString bytes).length ≤ maxLength :=
        Nat.le_trans (length_bitString_le (short bytes rfl)) (by decide)
      have known : isTag (Tag.wrapped 1) = true := by decide
      have found := contextField?_encode known (by decide) least content []
      rw [List.append_nil] at found
      have one : (Tag.wrapped 1).toNat % 32 = 1 := rfl
      simp only [one, eq_comm (a := 1)] at found
      exact found

theorem contextField?_curveField (named : Option Curve) {key : Option Bytes}
    (short : ∀ bytes ∈ key, IsShort bytes) :
    contextField? 0 (curveField named ++ publicField key) =
      some (named.map fun c => ⟨Tag.wrapped 0, oid c.oid⟩, publicField key) := by
  cases named with
  | none => exact contextField?_publicField short (Nat.zero_le 1)
  | some c =>
      have content : (oid c.oid).length ≤ maxLength :=
        Nat.le_trans (length_oid_le c) (by decide)
      exact contextField?_encode (by decide) (by decide) (Nat.zero_le _) content _

theorem readFields?_plainKey {scalar : Bytes} {key : Option Bytes} (short : IsShort scalar)
    (keyShort : ∀ bytes ∈ key, IsShort bytes) (named : Option Curve) :
    readFields? (plainKey scalar named key) = some ⟨scalar, key⟩ := by
  have whole := only?_eq_some_iff.mpr ⟨(by decide : isTag Tag.sequence = true),
    Nat.le_trans (length_plainKey_le short keyShort named) (by decide), rfl⟩
  have octets (rest : Bytes) :
      tagged? Tag.octetString (encode Tag.octetString scalar ++ rest) = some (scalar, rest) :=
    tagged?_eq_some_iff.mpr ⟨by decide, Nat.le_trans short (by decide), rfl⟩
  have known : (named.map fun c => (⟨Tag.wrapped 0, oid c.oid⟩ : Element)).any (fun field =>
      ((unwrap? 0 Tag.oid field).bind Oid.ofBytes?).isNone) = false := by
    cases named with
    | none => rfl
    | some c => cases c <;> decide
  simp only [readFields?, whole, small?_natural, octets, contextField?_curveField named keyShort,
    contextField?_publicField keyShort (Nat.le_refl 1), known, Option.bind_eq_bind,
    Option.bind_some, ne_eq, not_true, Bool.false_eq_true, if_false, if_true]
  cases key with
  | none => rfl
  | some bytes =>
      have inner : unwrap? 1 Tag.bitString ⟨Tag.wrapped 1, bitString bytes⟩ = some (0 :: bytes) :=
        unwrap?_encode (by decide)
          (Nat.le_trans (length_bitString_le (keyShort bytes rfl)) (by decide))
      simp only [Option.map_some, inner, Option.bind_some, wholeBits?_whole]
      rfl

end Fields

variable {pair : EcKeyPair} {c : Curve}

theorem isShort_encode (key : EcPublicKey) : IsShort key.encode := by
  rw [IsShort, EcPublicKey.length_encode]
  cases key.curve <;> decide

theorem isShort_compressed (key : EcPublicKey) : IsShort key.compressed := by
  rw [IsShort, EcPublicKey.compressed, List.length_cons, EcPublicKey.length_coordinate]
  cases key.curve <;> decide

theorem length_scalarBytes (pair : EcKeyPair) : pair.scalarBytes.length = pair.curve.fieldSize :=
  length_ofNatBE _ _

theorem isShort_scalarBytes (pair : EcKeyPair) : IsShort pair.scalarBytes := by
  rw [IsShort, length_scalarBytes]
  cases pair.curve <;> decide

theorem toNatBE_scalarBytes (pair : EcKeyPair) : toNatBE pair.scalarBytes = pair.scalar := by
  have bound : pair.curve.order ≤ 256 ^ pair.curve.fieldSize := by
    cases pair.curve <;> decide +kernel
  exact toNatBE_ofNatBE_of_lt (Nat.lt_of_lt_of_le pair.inRange.2 bound)

/-- A public key that may stand beside a scalar: none, or the scalar's in either form. -/
def MayShow (pair : EcKeyPair) (key : Option Bytes) : Prop :=
  ∀ bytes ∈ key, bytes = pair.publicKey.encode ∨ bytes = pair.publicKey.compressed

theorem MayShow.isShort {key : Option Bytes} (shown : MayShow pair key) :
    ∀ bytes ∈ key, IsShort bytes := by
  intro bytes there
  rcases shown bytes there with rfl | rfl
  · exact isShort_encode _
  · exact isShort_compressed _

theorem ofScalar?_own (pair : EcKeyPair) : ofScalar? pair.curve pair.scalar = some pair :=
  ofScalar?_eq_some_iff.mpr ⟨rfl, rfl⟩

theorem minScalarSize_le (c : Curve) : minScalarSize ≤ c.fieldSize := by
  cases c <;> decide

theorem ofFields?_scalarBytes {other : EcKeyPair} (pair : EcKeyPair) (key : Option Bytes)
    (fits : pair.curve.fieldSize ≤ c.fieldSize) (found : ofScalar? c pair.scalar = some other) :
    ofFields? c ⟨pair.scalarBytes, key⟩ =
      match key with
      | none => some other
      | some bytes =>
        if bytes = other.publicKey.encode ∨ bytes = other.publicKey.compressed then some other
        else none := by
  have size : ¬ (pair.scalarBytes.length < minScalarSize ∨
      c.fieldSize < pair.scalarBytes.length) := by
    have least := minScalarSize_le pair.curve
    rw [length_scalarBytes]
    omega
  simp only [ofFields?, if_neg size, toNatBE_scalarBytes, found, Option.bind_eq_bind,
    Option.bind_some]
  rfl

theorem ofFields?_own {key : Option Bytes} (shown : MayShow pair key) :
    ofFields? pair.curve ⟨pair.scalarBytes, key⟩ = some pair := by
  rw [ofFields?_scalarBytes pair key (Nat.le_refl _) (ofScalar?_own pair)]
  cases key with
  | none => rfl
  | some bytes => exact if_pos (shown bytes rfl)

theorem length_compressed (key : EcPublicKey) :
    key.compressed.length = key.curve.fieldSize + 1 := by
  rw [EcPublicKey.compressed, List.length_cons, EcPublicKey.length_coordinate]

theorem exists_larger (pair : EcKeyPair) :
    ∃ other, ofScalar? .secp384r1 pair.scalar = some other := by
  have largest : pair.publicKey.curve.order ≤ Curve.secp384r1.order := by
    cases pair.publicKey.curve <;> decide
  exact exists_ofScalar? ⟨pair.inRange.1, Nat.lt_of_lt_of_le pair.inRange.2 largest⟩

/-- The public key of the scalar on one curve is not taken for that on another. -/
theorem ofFields?_foreign {bytes : Bytes} {other : EcKeyPair} (shown : MayShow pair (some bytes))
    (smaller : pair.curve = .secp256r1) (found : ofScalar? .secp384r1 pair.scalar = some other) :
    ofFields? .secp384r1 ⟨pair.scalarBytes, some bytes⟩ = none := by
  have fits : pair.curve.fieldSize ≤ Curve.secp384r1.fieldSize := by
    rw [smaller]
    decide
  rw [ofFields?_scalarBytes pair _ fits found]
  apply if_neg
  have on : other.publicKey.curve = .secp384r1 := (of_ofScalar? found).1
  have off : pair.publicKey.curve = .secp256r1 := smaller
  have sizes : bytes.length = 65 ∨ bytes.length = 33 := by
    rcases shown bytes rfl with rfl | rfl
    · rw [EcPublicKey.length_encode, off]
      exact .inl rfl
    · rw [length_compressed, off]
      exact .inr rfl
  rintro (rfl | rfl)
  · rw [EcPublicKey.length_encode, on] at sizes
    revert sizes
    decide
  · rw [length_compressed, on] at sizes
    revert sizes
    decide

theorem isLabel_plain : Pem.IsLabel plainLabel.toList := fun _ => rfl

theorem isLabel_wrapped : Pem.IsLabel wrappedLabel.toList := fun _ => rfl

theorem ofPem_of_decode? {text label : String} {bytes : Bytes}
    (block : Pem.decode? text.toList = some (label, bytes))
    (read : ofBlock? label bytes = some pair) : ofPem text = .ok pair := by
  simp only [ofPem, block, Option.bind_some, read]
  rfl

section Plain

variable {named : Option Curve} {key : Option Bytes}

theorem ofKey?_plainKey (shown : MayShow pair key) (c : Curve) :
    ofKey? c (plainKey pair.scalarBytes named key) = ofFields? c ⟨pair.scalarBytes, key⟩ := by
  rw [ofKey?, readFields?_plainKey (isShort_scalarBytes pair) shown.isShort, Option.bind_some]

theorem ofBlock?_plainKey (shown : MayShow pair key) :
    ofBlock? plainLabel (plainKey pair.scalarBytes named key) =
      (ofFields? .secp384r1 ⟨pair.scalarBytes, key⟩).or
        (ofFields? .secp256r1 ⟨pair.scalarBytes, key⟩) := by
  rw [ofBlock?, if_neg (by decide), if_pos rfl, Curve.all]
  simp only [List.findSome?_cons, List.findSome?_nil, ofKey?_plainKey shown]
  cases ofFields? .secp384r1 ⟨pair.scalarBytes, key⟩ with
  | some other => rfl
  | none => cases ofFields? .secp256r1 ⟨pair.scalarBytes, key⟩ <;> rfl

/-- The public key tells the curve, and so does a scalar of the larger curve. -/
theorem ofBlock?_of_told (shown : MayShow pair key)
    (told : pair.curve = .secp384r1 ∨ key ≠ none) :
    ofBlock? plainLabel (plainKey pair.scalarBytes named key) = some pair := by
  have own := ofFields?_own shown
  rw [ofBlock?_plainKey shown]
  cases on : pair.curve with
  | secp384r1 =>
      rw [on] at own
      rw [own, Option.some_or]
  | secp256r1 =>
      rw [on] at own told
      cases key with
      | none => simp at told
      | some bytes =>
          obtain ⟨other, found⟩ := pair.exists_larger
          rw [ofFields?_foreign shown on found, Option.none_or, own]

/-- Nothing else tells the curve: without its public key a scalar is taken for one of the larger
curve. -/
theorem ofBlock?_of_untold {other : EcKeyPair} (smaller : pair.curve = .secp256r1)
    (found : ofScalar? .secp384r1 pair.scalar = some other) :
    ofBlock? plainLabel (plainKey pair.scalarBytes named none) = some other := by
  have shown : MayShow pair none := fun _ there => by cases there
  have fits : pair.curve.fieldSize ≤ Curve.secp384r1.fieldSize := by
    rw [smaller]
    decide
  rw [ofBlock?_plainKey shown, ofFields?_scalarBytes pair none fits found, Option.some_or]

end Plain

section Wrapped

theorem toKey_eq (pair : EcKeyPair) :
    pair.toKey = plainKey pair.scalarBytes none (some pair.publicKey.encode) := by
  simp only [toKey, plainKey, curveField, publicField, Option.elim, List.nil_append,
    List.append_assoc]

theorem mayShow_encode (pair : EcKeyPair) : MayShow pair (some pair.publicKey.encode) := by
  rintro _ ⟨⟩
  exact .inl rfl

theorem length_toKey_le (pair : EcKeyPair) : pair.toKey.length ≤ 255 := by
  rw [toKey_eq]
  exact length_plainKey_le (isShort_scalarBytes pair) (mayShow_encode pair).isShort none

def algorithm (c : Curve) : PublicKey.Algorithm :=
  ⟨PublicKey.ecAlgorithm, some ⟨Tag.oid, c.oid.encoded⟩⟩

theorem curveOid?_algorithm (c : Curve) : (algorithm c).curveOid? = some c.oid := by
  cases c <;> decide

theorem unwrapKey?_toWrapped (pair : EcKeyPair) :
    unwrapKey? pair.toWrapped = some (algorithm pair.curve, pair.toKey) := by
  have inner : (encode Tag.sequence (oid PublicKey.ecAlgorithm ++ oid pair.curve.oid)).length ≤ 30 := by
    cases pair.curve <;> decide
  have front : (oid PublicKey.ecAlgorithm ++ oid pair.curve.oid).length ≤ maxLength :=
    Nat.le_trans (length_encode_ge Tag.sequence _) (Nat.le_trans inner (by decide))
  have key := length_toKey_le pair
  have keyElement : (encode Tag.octetString pair.toKey).length ≤ 261 :=
    Nat.le_trans (length_encode_le _ (Nat.le_trans key (by decide))) (Nat.add_le_add_right key 6)
  have whole : pair.toWrapped.length ≤ maxLength := by
    have version : (natural [0]).length = 3 := rfl
    have content : (natural [0] ++ encode Tag.sequence (oid PublicKey.ecAlgorithm ++
        oid pair.curve.oid) ++ encode Tag.octetString pair.toKey).length ≤ 300 := by
      simp only [List.length_append] at *
      omega
    have limit : 306 ≤ maxLength := by decide
    exact Nat.le_trans (length_encode_le _ (Nat.le_trans content (by decide))) (by omega)
  have read := only?_eq_some_iff.mpr ⟨(by decide : isTag Tag.sequence = true), whole, rfl⟩
  have sequence (rest : Bytes) : tagged? Tag.sequence
      (encode Tag.sequence (oid PublicKey.ecAlgorithm ++ oid pair.curve.oid) ++ rest) =
        some (oid PublicKey.ecAlgorithm ++ oid pair.curve.oid, rest) :=
    tagged?_eq_some_iff.mpr ⟨by decide, front, rfl⟩
  have octets : tagged? Tag.octetString (encode Tag.octetString pair.toKey) =
      some (pair.toKey, []) :=
    tagged?_eq_some_iff.mpr ⟨by decide, Nat.le_trans key (by decide), (List.append_nil _).symm⟩
  have short : pair.curve.oid.encoded.length ≤ maxLength := by
    cases pair.curve <;> decide
  have named : PublicKey.Algorithm.read? (oid PublicKey.ecAlgorithm ++ oid pair.curve.oid) =
      some (algorithm pair.curve) :=
    PublicKey.read?_oid_element (e := ⟨Tag.oid, pair.curve.oid.encoded⟩) (by decide +kernel)
      (by simp [isTag, Tag.oid]) short
  simp only [unwrapKey?, read, List.append_assoc, small?_natural, sequence, named, octets,
    contextField?_nil, Option.bind_eq_bind, Option.bind_some]
  rfl

theorem ofWrapped?_toWrapped (pair : EcKeyPair) (c : Curve) :
    ofWrapped? c pair.toWrapped = if pair.curve = c then some pair else none := by
  have own := ofFields?_own (mayShow_encode pair)
  have key : ofKey? pair.curve pair.toKey = some pair := by
    rw [toKey_eq, ofKey?_plainKey (mayShow_encode pair), own]
  have foreign : pair.curve ≠ c → pair.curve.oid ≠ c.oid := by
    cases pair.curve <;> cases c <;> decide
  simp only [ofWrapped?, unwrapKey?_toWrapped, Option.bind_eq_bind, Option.bind_some,
    curveOid?_algorithm, Option.some.injEq]
  by_cases same : pair.curve = c
  · subst same
    rw [if_pos ⟨rfl, rfl⟩, if_pos rfl, key]
  · rw [if_neg fun both => foreign same both.2, if_neg same]

theorem ofBlock?_toWrapped (pair : EcKeyPair) :
    ofBlock? wrappedLabel pair.toWrapped = some pair := by
  rw [ofBlock?, if_pos rfl, Curve.all]
  simp only [List.findSome?_cons, ofWrapped?_toWrapped]
  cases pair.curve <;> rfl

theorem toWrapped_ne_nil (pair : EcKeyPair) : pair.toWrapped ≠ [] := List.cons_ne_nil _ _

theorem ofPem_toPem (pair : EcKeyPair) : ofPem pair.toPem = .ok pair :=
  ofPem_of_decode? (Pem.decode?_encode isLabel_wrapped (toWrapped_ne_nil pair))
    (ofBlock?_toWrapped pair)

end Wrapped

/-- The scalars between zero and the order of a curve, and no others, have key pairs on it, and each
pair is read back from its text block as it is. -/
theorem wrapped_pair_read_back (c : Curve) (n : Nat) :
    0 < n ∧ n < c.order ↔
      ∃ pair, ofScalar? c n = some pair ∧ pair.curve = c ∧ pair.scalar = n ∧
        ofPem pair.toPem = .ok pair := by
  constructor
  · intro inRange
    obtain ⟨pair, found⟩ := exists_ofScalar? inRange
    obtain ⟨on, same⟩ := of_ofScalar? found
    exact ⟨pair, found, on, same, ofPem_toPem pair⟩
  · rintro ⟨pair, _, rfl, rfl, _⟩
    exact pair.inRange

/--
What is read of a scalar `n` of `c` in a text block by itself, as many bytes as a coordinate of `c`,
whether the block names a curve and whether it holds the public key, in either form. With its public
key, or on the larger curve, it is the key pair on `c`. On the smaller curve without its public key
it is the pair that the scalar has on the larger one, even if the block names the smaller.
-/
theorem plain_pair_read {c : Curve} {n : Nat} (inRange : 0 < n ∧ n < c.order) :
    ∃ pair, ofScalar? c n = some pair ∧
      ∀ (named : Option Curve) (key : Option Bytes) (text : String), MayShow pair key →
        Pem.decode? text.toList =
          some (plainLabel, plainKey (ofNatBE c.fieldSize n) named key) →
        (c = .secp384r1 ∨ key ≠ none → ofPem text = .ok pair) ∧
          (c = .secp256r1 ∧ key = none →
            ∃ other, ofScalar? .secp384r1 n = some other ∧ ofPem text = .ok other) := by
  obtain ⟨pair, found⟩ := exists_ofScalar? inRange
  refine ⟨pair, found, ?_⟩
  obtain ⟨rfl, rfl⟩ := of_ofScalar? found
  intro named key text shown block
  constructor
  · intro told
    exact ofPem_of_decode? block (ofBlock?_of_told shown told)
  · rintro ⟨smaller, rfl⟩
    obtain ⟨other, larger⟩ := pair.exists_larger
    exact ⟨other, larger, ofPem_of_decode? block (ofBlock?_of_untold smaller larger)⟩

theorem ofScalar?_one (c : Curve) : ofScalar? c 1 = some (one c) := (Option.some_get _).symm

def oneText (key : Option Bytes) : String :=
  Pem.encode plainLabel (plainKey (ofNatBE 32 1) (some .secp256r1) key)

theorem decode?_oneText (key : Option Bytes) : Pem.decode? (oneText key).toList =
    some (plainLabel, plainKey (ofNatBE 32 1) (some .secp256r1) key) :=
  Pem.decode?_encode isLabel_plain (List.cons_ne_nil _ _)

theorem oneText_read :
    (0 < 1 ∧ 1 < Curve.order .secp256r1) ∧
      ∃ pair, ofScalar? .secp256r1 1 = some pair ∧
        MayShow pair (some pair.publicKey.encode) ∧ MayShow pair none ∧
        ofPem (oneText (some pair.publicKey.encode)) = .ok pair ∧
        ∃ other, ofScalar? .secp384r1 1 = some other ∧ ofPem (oneText none) = .ok other := by
  have inRange : 0 < 1 ∧ 1 < Curve.order .secp256r1 := by decide
  obtain ⟨pair, found, read⟩ := plain_pair_read inRange
  have nothing : MayShow pair none := fun _ there => by cases there
  have shown := read _ _ _ (mayShow_encode pair) (decode?_oneText _)
  have unshown := read _ _ _ nothing (decode?_oneText none)
  exact ⟨inRange, pair, found, mayShow_encode pair, nothing, shown.1 (.inr (by simp)),
    unshown.2 ⟨rfl, rfl⟩⟩

/-- The curve that the block names is not the one that its scalar is read on. -/
theorem oneText_read_on_larger :
    ofPem (oneText none) = .ok (one .secp384r1) ∧
      ofPem (oneText none) ≠ .ok (one .secp256r1) := by
  have scalars (c : Curve) := of_ofScalar? (ofScalar?_one c)
  have bytes : (one .secp256r1).scalarBytes = ofNatBE 32 1 := by
    rw [scalarBytes, (scalars _).1, (scalars _).2]
    rfl
  have larger : ofScalar? .secp384r1 (one .secp256r1).scalar = some (one .secp384r1) := by
    rw [(scalars _).2, ofScalar?_one]
  have read : ofBlock? plainLabel (plainKey _ (some .secp256r1) none) = some (one .secp384r1) :=
    ofBlock?_of_untold (scalars _).1 larger
  rw [bytes] at read
  have text := ofPem_of_decode? (decode?_oneText none) read
  refine ⟨text, ?_⟩
  rw [text]
  intro same
  have curves := congrArg curve (Except.ok.inj same)
  rw [(scalars _).1, (scalars _).1] at curves
  cases curves

end EcKeyPair

end SealedContainer
