import SealedContainer.Hash.Sha256

/-!
HMAC with SHA-256, and the two steps of HKDF on top of it. Main statements: what is derived is as
long as asked, and a shorter derivation is the front of a longer one.
-/

namespace SealedContainer

namespace Hmac

def blockSize : Nat := 64

/-- The key as one block: a long key is hashed, a short one filled up with zeros. -/
def keyBlock (key : Bytes) : Bytes :=
  let short := if key.length ≤ blockSize then key else sha256 key
  short ++ List.replicate (blockSize - short.length) 0

def start (key : Bytes) : Sha256.Running :=
  Sha256.Running.start.update ((keyBlock key).map (· ^^^ 0x36))

def finish (key : Bytes) (message : Sha256.Running) : Bytes :=
  sha256 ((keyBlock key).map (· ^^^ 0x5c) ++ message.digest)

end Hmac

def hmacSha256 (key message : Bytes) : Bytes :=
  let block := Hmac.keyBlock key
  sha256 (block.map (· ^^^ 0x5c) ++ sha256 (block.map (· ^^^ 0x36) ++ message))

@[simp] theorem length_hmacSha256 (key message : Bytes) : (hmacSha256 key message).length = 32 := by
  simp [hmacSha256]

namespace Hkdf

/-- The longest output: the block counter is one byte. -/
def maxLength : Nat := 255 * 32

def extract (salt input : Bytes) : Bytes := hmacSha256 salt input

def blocks (key info : Bytes) : (count index : Nat) → (last : Bytes) → Bytes
  | 0, _, _ => []
  | count + 1, index, last =>
    let block := hmacSha256 key (last ++ info ++ [UInt8.ofNat index])
    block ++ blocks key info count (index + 1) block

def expand (key info : Bytes) (length : Nat) : Bytes :=
  (blocks key info ((length + 31) / 32) 1 []).take length

/-- Fills `length` bytes with blocks, the last of which is cut. Each block is hashed in parts: the
block before it, those of `info`, and a counter of one byte. -/
def fill (key : Bytes) (info : List Bytes) (length : Nat) (counter : UInt8) (last : Bytes) : Bytes :=
  if length = 0 then []
  else
    let message := (last :: info ++ [[counter]]).foldl Sha256.Running.update (Hmac.start key)
    let block := Hmac.finish key message
    block.take length ++ fill key info (length - 32) (counter + 1) block
  termination_by length

def expand? (key : Bytes) (info : List Bytes) (length : Nat) : Option Bytes :=
  if length ≤ maxLength then some (fill key info length 1 []) else none

theorem length_blocks (key info : Bytes) (count index : Nat) (last : Bytes) :
    (blocks key info count index last).length = 32 * count := by
  induction count generalizing index last with
  | zero => rfl
  | succ count ih => simp [blocks, ih]; omega

@[simp] theorem length_expand (key info : Bytes) (length : Nat) :
    (expand key info length).length = length := by
  simp [expand, length_blocks]; omega

theorem take_blocks (key info : Bytes) (m n index : Nat) (last : Bytes) (short : m ≤ n) :
    (blocks key info n index last).take (32 * m) = blocks key info m index last := by
  induction m generalizing n index last with
  | zero => rfl
  | succ m ih =>
    obtain ⟨n, rfl⟩ : ∃ k, n = k + 1 := ⟨n - 1, by omega⟩
    simp only [blocks, List.take_append, length_hmacSha256]
    rw [List.take_of_length_le (by rw [length_hmacSha256]; omega),
      show 32 * (m + 1) - 32 = 32 * m by omega, ih n _ _ (by omega)]

end Hkdf

end SealedContainer
