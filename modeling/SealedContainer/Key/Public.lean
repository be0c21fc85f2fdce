import SealedContainer.Asn1.Pem
import SealedContainer.Text
import SealedContainer.Key.Ec
import SealedContainer.Key.Rsa

/-!
Public keys of either algorithm, as certificates hold them: an algorithm identifier and the key in
a bit string, by itself or in a labelled text block.
-/

namespace SealedContainer

inductive PublicKey where
  | ec (key : EcPublicKey)
  | rsa (key : RsaPublicKey)
  deriving DecidableEq

namespace PublicKey

/-- 1.2.840.10045.2.1 -/
def ecAlgorithm : Oid := ⟨[0x2a, 0x86, 0x48, 0xce, 0x3d, 0x02, 0x01]⟩

/-- 1.2.840.113549.1.1.1 -/
def rsaAlgorithm : Oid := ⟨[0x2a, 0x86, 0x48, 0x86, 0xf7, 0x0d, 0x01, 0x01, 0x01]⟩

structure Algorithm where
  oid : Oid
  parameters : Option Der.Element

def Algorithm.read? (content : Bytes) : Option Algorithm := do
  let (oid, rest) ← Der.oid? content
  if rest = [] then return ⟨oid, none⟩
  else
    match ← Der.element? rest with
    | (parameters, []) => return ⟨oid, some parameters⟩
    | _ => none

def Algorithm.curveOid? (a : Algorithm) : Option Oid := do
  let parameters ← a.parameters
  if parameters.tag = Der.Tag.oid then Oid.ofBytes? parameters.content else none

def parts? (bytes : Bytes) : Option (Algorithm × Nat × Bytes) := do
  let content ← Der.only? Der.Tag.sequence bytes
  let (algorithm, rest) ← Der.tagged? Der.Tag.sequence content
  let algorithm ← Algorithm.read? algorithm
  let bits ← Der.only? Der.Tag.bitString rest
  return (algorithm, ← Der.bits? bits)

def ofInfo (bytes : Bytes) : Except CryptoError PublicKey :=
  match parts? bytes with
  | none => throw .notPublicKeyInfo
  | some (algorithm, unused, key) =>
    if unused ≠ 0 then throw .unusedBits
    else if algorithm.oid = ecAlgorithm then
      match algorithm.curveOid? with
      | none => throw .noNamedCurve
      | some oid =>
        match Curve.ofOid? oid with
        | none => throw (.curveOid oid)
        | some curve => ec <$> EcPublicKey.ofPoint curve key
    else if algorithm.oid = rsaAlgorithm then rsa <$> RsaPublicKey.decode key
    else throw (.algorithm algorithm.oid)

def ofPem (text : String) : Except CryptoError PublicKey :=
  match Pem.decode? (trimmed text) with
  | none => throw .notPem
  | some (label, bytes) =>
    if label = "PUBLIC KEY" then ofInfo bytes
    else if label = "RSA PUBLIC KEY" then rsa <$> RsaPublicKey.decode bytes
    else throw (.pemLabel label)

def info (algorithm : Oid) (parameters key : Bytes) : Bytes :=
  Der.encode Der.Tag.sequence
    (Der.encode Der.Tag.sequence (Der.oid algorithm ++ parameters) ++ Der.bitString key)

def toInfo : PublicKey → Bytes
  | ec key => info ecAlgorithm (Der.oid key.curve.oid) key.encode
  | rsa key => info rsaAlgorithm (Der.encode Der.Tag.null []) key.encode

def toInfo? (key : PublicKey) : Option Bytes :=
  if key.toInfo.length ≤ Der.maxLength then some key.toInfo else none

def toPem (key : PublicKey) : String := Pem.encode "PUBLIC KEY" key.toInfo

def algorithm : PublicKey → String
  | ec key => key.curve.name
  | rsa _ => "rsa"

def ec? : PublicKey → Option EcPublicKey
  | ec key => some key
  | rsa _ => none

end PublicKey

end SealedContainer
