import SealedContainer.Bytes
import SealedContainer.Square

/-!
Authenticated encryption by the ChaCha20 stream cipher and the Poly1305 one-time authenticator. The
authenticator reads a message as the coefficients of a polynomial, which is evaluated at a secret
point modulo the prime `2 ^ 130 - 5`. Block 0 of the key stream keys it, and the text is enciphered
from block 1 on.
-/

namespace SealedContainer.ChaCha20

def rotate (x n : UInt32) : UInt32 := (x <<< n) ||| (x >>> (32 - n))

def quarter (r : Row UInt32) : Row UInt32 :=
  let a := r.x + r.y
  let d := rotate (r.w ^^^ a) 16
  let c := r.z + d
  let b := rotate (r.y ^^^ c) 12
  let a := a + b
  let d := rotate (d ^^^ a) 8
  let c := c + d
  ⟨a, rotate (b ^^^ c) 7, c, d⟩

def quarters : Row (Row UInt32 → Row UInt32) := ⟨quarter, quarter, quarter, quarter⟩

def doubleRounds : Nat → Square UInt32 → Square UInt32
  | 0, s => s
  | n + 1, s => doubleRounds n ((s.columns quarters).diagonals quarters)

def word (bytes : Bytes) : UInt32 := UInt32.ofNat (Bytes.toNatLE bytes)

/-- The words that spell `expand 32-byte k`. -/
def constants : List UInt32 := [0x61707865, 0x3320646e, 0x79622d32, 0x6b206574]

def initial (key nonce : Bytes) (counter : Nat) : Square UInt32 :=
  Square.ofList 0 (constants ++ (Bytes.chunks 4 key).map word ++ [UInt32.ofNat counter] ++
    (Bytes.chunks 4 nonce).map word)

def block (key nonce : Bytes) (counter : Nat) : Bytes :=
  let start := initial key nonce counter
  ((doubleRounds 10 start).zipWith (· + ·) start).toList.flatMap fun w => Bytes.ofNatLE 4 w.toNat

theorem length_block (key nonce : Bytes) (counter : Nat) :
    (block key nonce counter).length = 64 := by
  simp [block, Square.toList, Row.toList]

def stream (key nonce : Bytes) (counter : Nat) (bytes : Bytes) : Bytes :=
  match bytes with
  | [] => []
  | b :: rest =>
    Bytes.xor (b :: rest.take 63) (block key nonce counter) ++
      stream key nonce (counter + 1) (rest.drop 63)
  termination_by bytes.length
  decreasing_by simp only [List.length_cons, List.length_drop]; omega

end SealedContainer.ChaCha20

namespace SealedContainer.Poly1305

def modulus : Nat := 2 ^ 130 - 5

/-- Keeps the bits of the point that the definition allows to be set. -/
def clamp (r : Nat) : Nat := r &&& 0x0ffffffc0ffffffc0ffffffc0fffffff

def coefficient (block : Bytes) : Nat := Bytes.toNatLE (block ++ [1])

def evaluate (point : Nat) (message : Bytes) : Nat :=
  (Bytes.chunks 16 message).foldl (fun sum block => (sum + coefficient block) * point % modulus) 0

def tag (key message : Bytes) : Bytes :=
  let point := clamp (Bytes.toNatLE (key.take 16))
  Bytes.ofNatLE 16 (evaluate point message + Bytes.toNatLE (key.drop 16))

@[simp] theorem length_tag (key message : Bytes) : (tag key message).length = 16 := by simp [tag]

end SealedContainer.Poly1305

namespace SealedContainer.Aead

def tagSize : Nat := 16

def nonceSize : Nat := 12

/-- A text has fewer blocks of 64 bytes than the key stream has numbers for. -/
def Fits (text : Bytes) : Prop := text.length / 64 < 2 ^ 32 - 1

instance (text : Bytes) : Decidable (Fits text) := by unfold Fits; infer_instance

def zeroPadded (bytes : Bytes) : Bytes :=
  bytes ++ List.replicate ((16 - bytes.length % 16) % 16) 0

/-- What the authenticator covers: both texts padded, then both lengths. -/
def transcript (associated ciphertext : Bytes) : Bytes :=
  zeroPadded associated ++ zeroPadded ciphertext ++
    Bytes.ofNatLE 8 associated.length ++ Bytes.ofNatLE 8 ciphertext.length

def tag (key nonce associated ciphertext : Bytes) : Bytes :=
  Poly1305.tag ((ChaCha20.block key nonce 0).take 32) (transcript associated ciphertext)

def sealed (key nonce associated plaintext : Bytes) : Bytes :=
  let ciphertext := ChaCha20.stream key nonce 1 plaintext
  ciphertext ++ tag key nonce associated ciphertext

def open? (key nonce associated text : Bytes) : Option Bytes :=
  let ciphertext := text.take (text.length - tagSize)
  if tagSize ≤ text.length ∧ Fits ciphertext ∧
      text.drop (text.length - tagSize) = tag key nonce associated ciphertext then
    some (ChaCha20.stream key nonce 1 ciphertext)
  else none

end SealedContainer.Aead
