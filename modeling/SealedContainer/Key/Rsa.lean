import SealedContainer.Asn1.Der
import SealedContainer.Error

/-!
RSA public keys and their encoding as a sequence of two integers.
-/

namespace SealedContainer

/-- A positive modulus and exponent, most significant byte first and without leading zeros. -/
structure RsaPublicKey where
  modulus : Bytes
  exponent : Bytes
  modulus_pos : modulus.head?.any (· ≠ 0) = true
  exponent_pos : exponent.head?.any (· ≠ 0) = true
  deriving DecidableEq

namespace RsaPublicKey

def new (modulus exponent : Bytes) : Except CryptoError RsaPublicKey :=
  let modulus := Bytes.trimZeros modulus
  let exponent := Bytes.trimZeros exponent
  if modulus_pos : modulus.head?.any (· ≠ 0) = true then
    if exponent_pos : exponent.head?.any (· ≠ 0) = true then
      return ⟨modulus, exponent, modulus_pos, exponent_pos⟩
    else throw .zeroExponent
  else throw .zeroModulus

def bits (key : RsaPublicKey) : Nat := Nat.log2 (Bytes.toNatBE key.modulus) + 1

def encode (key : RsaPublicKey) : Bytes :=
  Der.encode Der.Tag.sequence (Der.natural key.modulus ++ Der.natural key.exponent)

def encode? (key : RsaPublicKey) : Option Bytes :=
  if key.encode.length ≤ Der.maxLength then some key.encode else none

def integers? (bytes : Bytes) : Option (Bytes × Bytes) := do
  let content ← Der.only? Der.Tag.sequence bytes
  let (modulus, rest) ← Der.natural? content
  let (exponent, rest) ← Der.natural? rest
  if rest = [] then return (modulus, exponent) else none

def decode (bytes : Bytes) : Except CryptoError RsaPublicKey :=
  match integers? bytes with
  | some (modulus, exponent) => new modulus exponent
  | none => throw .notRsaKey

end RsaPublicKey

end SealedContainer
