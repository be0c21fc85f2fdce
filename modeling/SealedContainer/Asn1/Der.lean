import SealedContainer.Asn1.Oid

/-!
The distinguished encoding of ASN.1 values as tag, length and content. Lengths have one form
only, and so have integers.
-/

namespace SealedContainer.Der

structure Element where
  tag : UInt8
  content : Bytes
  deriving DecidableEq, Repr

/-- The most bytes that are read or written at a time. -/
def maxLength : Nat := 2 ^ 28 - 1

def lengthBytes (n : Nat) : Bytes :=
  if n < 128 then [UInt8.ofNat n]
  else
    let digits := Bytes.ofNatMinimal n
    UInt8.ofNat (128 + digits.length) :: digits

def Element.encode (e : Element) : Bytes := e.tag :: (lengthBytes e.content.length ++ e.content)

def encode (tag : UInt8) (content : Bytes) : Bytes := (Element.mk tag content).encode

/-- The universal tags that are known, and one-byte tags of the other three classes. -/
def isTag (b : UInt8) : Bool :=
  [0x01, 0x02, 0x03, 0x04, 0x05, 0x06, 0x09, 0x0a, 0x0c, 0x12, 0x13, 0x14, 0x15, 0x16, 0x17, 0x18,
    0x1a, 0x1b, 0x1e, 0x30, 0x31].contains b || (0x40 ≤ b && b.toNat % 32 ≠ 31)

def length? : Bytes → Option (Nat × Bytes)
  | [] => none
  | b :: rest =>
    if b < 0x80 then some (b.toNat, rest)
    else
      let count := b.toNat - 128
      let digits := rest.take count
      let n := Bytes.toNatBE digits
      if 1 ≤ count ∧ count ≤ 4 ∧ digits.length = count ∧ n ≤ maxLength ∧
          lengthBytes n = b :: digits then some (n, rest.drop count)
      else none

def element? : Bytes → Option (Element × Bytes)
  | [] => none
  | tag :: rest =>
    if isTag tag then
      match length? rest with
      | some (n, rest) => if n ≤ rest.length then some (⟨tag, rest.take n⟩, rest.drop n) else none
      | none => none
    else none

def tagged? (tag : UInt8) (bytes : Bytes) : Option (Bytes × Bytes) :=
  match element? bytes with
  | some (e, rest) => if e.tag = tag then some (e.content, rest) else none
  | none => none

def only? (tag : UInt8) (bytes : Bytes) : Option Bytes :=
  if bytes.length ≤ maxLength then
    match tagged? tag bytes with
    | some (content, []) => some content
    | _ => none
  else none

namespace Tag

def integer : UInt8 := 0x02
def bitString : UInt8 := 0x03
def octetString : UInt8 := 0x04
def null : UInt8 := 0x05
def oid : UInt8 := 0x06
def sequence : UInt8 := 0x30

def wrapped (number : UInt8) : UInt8 := 0xa0 + number

end Tag

def naturalContent (magnitude : Bytes) : Bytes :=
  match magnitude with
  | [] => [0]
  | b :: _ => if 0x80 ≤ b then 0 :: magnitude else magnitude

def natural (magnitude : Bytes) : Bytes := encode Tag.integer (naturalContent magnitude)

def magnitude? : Bytes → Option Bytes
  | [] => none
  | [b] => if b < 0x80 then some [b] else none
  | b :: c :: rest =>
    if b = 0 then if c < 0x80 then none else some (c :: rest)
    else if b < 0x80 then some (b :: c :: rest)
    else none

def natural? (bytes : Bytes) : Option (Bytes × Bytes) := do
  let (content, rest) ← tagged? Tag.integer bytes
  return (← magnitude? content, rest)

def small? (bytes : Bytes) : Option (UInt8 × Bytes) := do
  match ← natural? bytes with
  | ([b], rest) => return (b, rest)
  | _ => none

def oid? (bytes : Bytes) : Option (Oid × Bytes) := do
  let (content, rest) ← tagged? Tag.oid bytes
  return (← Oid.ofBytes? content, rest)

def oid (o : Oid) : Bytes := encode Tag.oid o.encoded

/-- How many bits of the last byte do not count, and the bytes. -/
def bits? : Bytes → Option (Nat × Bytes)
  | [] => none
  | unused :: bytes =>
    if 8 ≤ unused ∨ (unused ≠ 0 ∧ bytes = []) then none else some (unused.toNat, bytes)

def bitString (bytes : Bytes) : Bytes := encode Tag.bitString (0 :: bytes)

end SealedContainer.Der
