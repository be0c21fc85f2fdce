import SealedContainer.Bytes

/-!
Base64 with the standard alphabet and padding. Only what `encode` writes is read: padding is
required, and the bits that a last digit leaves over have to be zero.
-/

namespace SealedContainer.Base64

def alphabet : List Char :=
  "ABCDEFGHIJKLMNOPQRSTUVWXYZabcdefghijklmnopqrstuvwxyz0123456789+/".toList

def digit (n : Nat) : Char := alphabet.getD n 'A'

def digit? (c : Char) : Option Nat :=
  if 'A' ≤ c ∧ c ≤ 'Z' then some (c.toNat - 65)
  else if 'a' ≤ c ∧ c ≤ 'z' then some (c.toNat - 71)
  else if '0' ≤ c ∧ c ≤ '9' then some (c.toNat + 4)
  else if c = '+' then some 62
  else if c = '/' then some 63
  else none

/-- Three bytes make four digits; one or two bytes at the end make two or three digits. -/
def encode : Bytes → List Char
  | [] => []
  | [a] => [digit (a.toNat / 4), digit (a.toNat % 4 * 16), '=', '=']
  | [a, b] =>
    [digit (a.toNat / 4), digit (a.toNat % 4 * 16 + b.toNat / 16), digit (b.toNat % 16 * 4), '=']
  | a :: b :: c :: rest =>
    [digit (a.toNat / 4), digit (a.toNat % 4 * 16 + b.toNat / 16),
      digit (b.toNat % 16 * 4 + c.toNat / 64), digit (c.toNat % 64)] ++ encode rest

def decodeLast (a b c : Char) : Option Bytes := do
  let m ← digit? a
  let n ← digit? b
  if c = '=' then
    if n % 16 = 0 then return [UInt8.ofNat (4 * m + n / 16)] else none
  else
    let k ← digit? c
    if k % 4 = 0 then return [UInt8.ofNat (4 * m + n / 16), UInt8.ofNat (16 * n + k / 4)]
    else none

def decode : List Char → Option Bytes
  | [] => some []
  | a :: b :: c :: d :: rest =>
    if d = '=' then
      if rest = [] then decodeLast a b c else none
    else do
      let m ← digit? a
      let n ← digit? b
      let k ← digit? c
      let l ← digit? d
      return UInt8.ofNat (4 * m + n / 16) :: UInt8.ofNat (16 * n + k / 4) ::
        UInt8.ofNat (64 * k + l) :: (← decode rest)
  | _ => none

def encodeText (bytes : Bytes) : String := String.ofList (encode bytes)

def decodeText (text : String) : Option Bytes := decode text.toList

end SealedContainer.Base64
