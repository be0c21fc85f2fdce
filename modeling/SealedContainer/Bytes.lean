/-!
Byte strings, and the numbers and texts they stand for. Main statements: a number that fits is
read back from its fixed-width form, in either byte order, and a text from its UTF-8 bytes.
-/

namespace SealedContainer

-- Powers are elaborated with the instance of the core library, whatever else is imported.
attribute [instance (high), default_instance 20000] instPowNat

abbrev Bytes := List UInt8

namespace Bytes

def ofNatLE : (width n : Nat) → Bytes
  | 0, _ => []
  | width + 1, n => UInt8.ofNat n :: ofNatLE width (n / 256)

def ofNatBE (width n : Nat) : Bytes := (ofNatLE width n).reverse

def toNatLE : Bytes → Nat
  | [] => 0
  | b :: rest => b.toNat + 256 * toNatLE rest

def toNatBE (bytes : Bytes) : Nat := bytes.foldl (fun n b => 256 * n + b.toNat) 0

def xor (a b : Bytes) : Bytes := List.zipWith (· ^^^ ·) a b

/-- Cuts into pieces of `size` bytes, but of one byte at least. The last piece may be shorter. -/
def chunks (size : Nat) (bytes : Bytes) : List Bytes :=
  match bytes with
  | [] => []
  | b :: rest => (b :: rest.take (size - 1)) :: chunks size (rest.drop (size - 1))
  termination_by bytes.length
  decreasing_by simp only [List.length_cons, List.length_drop]; omega

def trimZeros (bytes : Bytes) : Bytes := bytes.dropWhile (· == 0)

/-- The bytes of `n` without leading zeros; zero has none. -/
def ofNatMinimal (n : Nat) : Bytes := trimZeros (ofNatBE (Nat.log2 n / 8 + 1) n)

def ofString (s : String) : Bytes := s.toUTF8.data.toList

def toString? (bytes : Bytes) : Option String := String.fromUTF8? ⟨bytes.toArray⟩

@[simp] theorem length_ofNatLE (width n : Nat) : (ofNatLE width n).length = width := by
  induction width generalizing n with
  | zero => rfl
  | succ width ih => simp [ofNatLE, ih]

@[simp] theorem length_ofNatBE (width n : Nat) : (ofNatBE width n).length = width := by
  simp [ofNatBE]

theorem toNatLE_ofNatLE (width n : Nat) : toNatLE (ofNatLE width n) = n % 256 ^ width := by
  induction width generalizing n with
  | zero => simp [ofNatLE, toNatLE, Nat.mod_one]
  | succ width ih =>
    have low : (UInt8.ofNat n).toNat = n % 256 := by simp
    rw [ofNatLE, toNatLE, ih, low, Nat.pow_succ, Nat.mul_comm (256 ^ width), Nat.mod_mul]

theorem toNatBE_append_singleton (bytes : Bytes) (b : UInt8) :
    toNatBE (bytes ++ [b]) = 256 * toNatBE bytes + b.toNat := by
  simp [toNatBE]

theorem toNatBE_reverse (bytes : Bytes) : toNatBE bytes.reverse = toNatLE bytes := by
  induction bytes with
  | nil => rfl
  | cons b rest ih => rw [List.reverse_cons, toNatBE_append_singleton, ih, toNatLE, Nat.add_comm]

theorem toNatBE_ofNatBE (width n : Nat) : toNatBE (ofNatBE width n) = n % 256 ^ width := by
  rw [ofNatBE, toNatBE_reverse, toNatLE_ofNatLE]

@[simp] theorem toString?_ofString (s : String) : toString? (ofString s) = some s := by
  simp [toString?, ofString, String.fromUTF8?]
  exact ⟨s.isValidUTF8, rfl⟩

end Bytes

end SealedContainer
