import SealedContainer.Key.Public

/-!
Private keys on a curve as labelled text blocks. A block holds the key by itself, or wrapped with
its algorithm. The forms are tried in turn, wrapped ones first and the larger curve first.
-/

namespace SealedContainer.EcKeyPair

structure KeyFields where
  scalar : Bytes
  publicKey : Option Bytes

def skipFields (fuel number : Nat) (bytes : Bytes) : Option Bytes :=
  match fuel, bytes with
  | 0, _ => none
  | _, [] => some []
  | fuel + 1, tag :: _ =>
    if !Der.isTag tag then none
    else if 0x80 ≤ tag ∧ tag < 0xc0 ∧ tag.toNat % 32 < number then
      match Der.element? bytes with
      | some (_, rest) => skipFields fuel number rest
      | none => none
    else some bytes

def contextField? (number : Nat) (bytes : Bytes) : Option (Option Der.Element × Bytes) := do
  match ← skipFields (bytes.length + 1) number bytes with
  | [] => return (none, [])
  | tag :: rest =>
    if 0x80 ≤ tag ∧ tag < 0xc0 ∧ tag.toNat % 32 = number then
      let (e, rest) ← Der.element? (tag :: rest)
      return (some e, rest)
    else return (none, tag :: rest)

def unwrap? (number tag : UInt8) (field : Der.Element) : Option Bytes :=
  if field.tag = Der.Tag.wrapped number then Der.only? tag field.content else none

def wholeBits? (content : Bytes) : Option Bytes := do
  match ← Der.bits? content with
  | (0, bytes) => return bytes
  | _ => none

/-- Version 1, the scalar, then the curve and the public key in wrapped fields. The curve has to be
an identifier but is not used: which curve the key is on, the caller knows. -/
def readFields? (bytes : Bytes) : Option KeyFields := do
  let content ← Der.only? Der.Tag.sequence bytes
  let (version, rest) ← Der.small? content
  if version ≠ 1 then none
  else
    let (scalar, rest) ← Der.tagged? Der.Tag.octetString rest
    let (curve, rest) ← contextField? 0 rest
    if curve.any fun field => ((unwrap? 0 Der.Tag.oid field).bind Oid.ofBytes?).isNone then none
    else
      let (key, rest) ← contextField? 1 rest
      if rest ≠ [] then none
      else
        match key with
        | none => return ⟨scalar, none⟩
        | some field => return ⟨scalar, some (← wholeBits? (← unwrap? 1 Der.Tag.bitString field))⟩

/-- The shortest scalar that is filled up to the width of the curve. -/
def minScalarSize : Nat := 24

/-- The pair on `c` that the fields describe. A public key that is there has to be the scalar's. -/
def ofFields? (c : Curve) (fields : KeyFields) : Option EcKeyPair := do
  if fields.scalar.length < minScalarSize ∨ c.fieldSize < fields.scalar.length then none
  else
    let pair ← ofScalar? c (Bytes.toNatBE fields.scalar)
    match fields.publicKey with
    | none => return pair
    | some key =>
      if key = pair.publicKey.encode ∨ key = pair.publicKey.compressed then return pair else none

def ofKey? (c : Curve) (bytes : Bytes) : Option EcKeyPair := (readFields? bytes).bind (ofFields? c)

/-- What may follow the known fields of a wrapped key: wrapped fields of one element each. -/
def onlyWrapped (fuel : Nat) (bytes : Bytes) : Bool :=
  match fuel with
  | 0 => false
  | fuel + 1 =>
    if bytes = [] then true
    else
      match Der.element? bytes with
      | some (e, rest) =>
        if 0xa0 ≤ e.tag ∧ e.tag < 0xc0 then
          match Der.element? e.content with
          | some (_, []) => onlyWrapped fuel rest
          | _ => false
        else false
      | none => false

/-- The algorithm of a wrapped key, and the key. A second version also holds a public key. -/
def unwrapKey? (bytes : Bytes) : Option (PublicKey.Algorithm × Bytes) := do
  let content ← Der.only? Der.Tag.sequence bytes
  let (version, rest) ← Der.small? content
  let (algorithm, rest) ← Der.tagged? Der.Tag.sequence rest
  let algorithm ← PublicKey.Algorithm.read? algorithm
  let (key, rest) ← Der.tagged? Der.Tag.octetString rest
  let (publicKey, rest) ← contextField? 1 rest
  let publicKey ← match publicKey with
    | none => some none
    | some field => if field.tag = 0x81 then some <$> wholeBits? field.content else none
  if version < 2 ∧ (version = 1) = publicKey.isSome ∧ onlyWrapped (rest.length + 1) rest then
    return (algorithm, key)
  else none

def ofWrapped? (c : Curve) (bytes : Bytes) : Option EcKeyPair := do
  let (algorithm, key) ← unwrapKey? bytes
  if algorithm.oid = PublicKey.ecAlgorithm ∧ algorithm.curveOid? = some c.oid then ofKey? c key
  else none

def wrappedLabel : String := "PRIVATE KEY"

def plainLabel : String := "EC PRIVATE KEY"

def ofBlock? (label : String) (bytes : Bytes) : Option EcKeyPair :=
  if label = wrappedLabel then Curve.all.findSome? (ofWrapped? · bytes)
  else if label = plainLabel then Curve.all.findSome? (ofKey? · bytes)
  else none

def ofPem (text : String) : Except CryptoError EcKeyPair :=
  match (Pem.decode? text.toList).bind fun (label, bytes) => ofBlock? label bytes with
  | some pair => return pair
  | none => throw .notPrivateKey

def toKey (pair : EcKeyPair) : Bytes :=
  Der.encode Der.Tag.sequence (Der.natural [1] ++
    Der.encode Der.Tag.octetString pair.scalarBytes ++
    Der.encode (Der.Tag.wrapped 1) (Der.bitString pair.publicKey.encode))

def toWrapped (pair : EcKeyPair) : Bytes :=
  Der.encode Der.Tag.sequence (Der.natural [0] ++
    Der.encode Der.Tag.sequence (Der.oid PublicKey.ecAlgorithm ++ Der.oid pair.curve.oid) ++
    Der.encode Der.Tag.octetString pair.toKey)

def toPem (pair : EcKeyPair) : String := Pem.encode wrappedLabel pair.toWrapped

end SealedContainer.EcKeyPair
