import SealedContainer.Asn1.Oid
import SealedContainer.Text

/-!
The two curves that keys may be on, with their names, identifiers and sizes, and their points with
the addition by chords and tangents, on coordinates below the prime of the field. Main statements are
about `Contains`: it is what a public key has to satisfy.
-/

namespace SealedContainer

inductive Curve where
  | secp384r1
  | secp256r1
  deriving DecidableEq, Repr

namespace Curve

def all : List Curve := [secp384r1, secp256r1]

def name : Curve → String
  | secp384r1 => "secp384r1"
  | secp256r1 => "secp256r1"

/-- 1.3.132.0.34 and 1.2.840.10045.3.1.7. -/
def oid : Curve → Oid
  | secp384r1 => ⟨[0x2b, 0x81, 0x04, 0x00, 0x22]⟩
  | secp256r1 => ⟨[0x2a, 0x86, 0x48, 0xce, 0x3d, 0x03, 0x01, 0x07]⟩

def fieldSize : Curve → Nat
  | secp384r1 => 48
  | secp256r1 => 32

def pointSize (c : Curve) : Nat := 2 * c.fieldSize + 1

def tag : Curve → Int
  | secp384r1 => 1
  | secp256r1 => 2

def ofTag? (n : Int) : Option Curve := all.find? fun c => c.tag = n

def ofOid? (o : Oid) : Option Curve := all.find? fun c => c.oid = o

def aliases : Curve → List String
  | secp384r1 => ["1.3.132.0.34", "secp384r1", "NIST P-384", "P-384"]
  | secp256r1 =>
    ["1.2.840.10045.3.1.7", "secp256r1", "NIST P-256", "P-256", "prime256v1", "X9.62 prime256v1"]

def isName (c : Curve) (text : String) : Bool :=
  c.aliases.any fun name => name.toList.map Char.toLower == (trimmed text).map Char.toLower

def ofName? (text : String) : Option Curve := all.find? (·.isName text)

theorem ofOid?_oid (c : Curve) : ofOid? c.oid = some c := by cases c <;> rfl

def prime : Curve → Nat
  | secp384r1 => 2 ^ 384 - 2 ^ 128 - 2 ^ 96 + 2 ^ 32 - 1
  | secp256r1 => 2 ^ 256 - 2 ^ 224 + 2 ^ 192 + 2 ^ 96 - 1

/-- The coefficient of `x` in the equation is minus three. -/
def coeffA (c : Curve) : Nat := c.prime - 3

def coeffB : Curve → Nat
  | secp384r1 =>
    0xb3312fa7e23ee7e4988e056be3f82d19181d9c6efe8141120314088f5013875ac656398d8a2ed19d2a85c8edd3ec2aef
  | secp256r1 => 0x5ac635d8aa3a93e7b3ebbd55769886bc651d06b0cc53b0f63bce3c3e27d2604b

def order : Curve → Nat
  | secp384r1 =>
    0xffffffffffffffffffffffffffffffffffffffffffffffffc7634d81f4372ddf581a0db248b0a77aecec196accc52973
  | secp256r1 => 0xffffffff00000000ffffffffffffffffbce6faada7179e84f3b9cac2fc632551

def Contains (c : Curve) (x y : Nat) : Prop :=
  x < c.prime ∧ y < c.prime ∧ y * y % c.prime = (x * x * x + c.coeffA * x + c.coeffB) % c.prime

instance (c : Curve) (x y : Nat) : Decidable (c.Contains x y) := by
  unfold Contains; infer_instance

def cubic (c : Curve) (x : Nat) : Nat := (x * x * x + c.coeffA * x + c.coeffB) % c.prime

/-- Repeated squaring; `fuel` counts the bits of the exponent. -/
def powMod (m : Nat) : (fuel base exponent : Nat) → Nat
  | 0, _, _ => 1 % m
  | fuel + 1, base, exponent =>
    let rest := powMod m fuel (base * base % m) (exponent / 2)
    if exponent % 2 = 1 then base * rest % m else rest

/-- The square root of `n` modulo the prime that is a power of `n`, when `n` has a root. Both
primes are three modulo four, so this power is a root of every square. -/
def root? (c : Curve) (n : Nat) : Option Nat :=
  let exponent := (c.prime + 1) / 4
  let r := powMod c.prime (Nat.log2 exponent + 1) n exponent
  if r * r % c.prime = n % c.prime then some r else none

/-- The steps of Euclid's algorithm on `r` and `s`, with the multiples of a number that they are
congruent to carried along. -/
def euclid : (fuel r s : Nat) → (t u : Int) → Int
  | 0, _, _, t, _ => t
  | fuel + 1, r, s, t, u => if s = 0 then t else euclid fuel s (r % s) u (t - (r / s : Nat) * u)

def inverse (m n : Nat) : Nat := (euclid (2 * Nat.log2 m + 3) m (n % m) 0 1 % m).toNat

end Curve

inductive Point where
  | infinity
  | affine (x y : Nat)
  deriving DecidableEq, Repr

namespace Point

def generator : Curve → Point
  | .secp384r1 => affine
    0xaa87ca22be8b05378eb1c71ef320ad746e1d3b628ba79b9859f741e082542a385502f25dbf55296c3a545e3872760ab7
    0x3617de4a96262c6f5d9e98bf9292dc29f8f41dbd289a147ce9da3113b5f0b8c00a60b1ce1d7e819d7a431d7c90ea0e5f
  | .secp256r1 => affine
    0x6b17d1f2e12c4247f8bce6e563a440f277037d812deb33a0f4a13945d898c296
    0x4fe342e2fe1a7f9b8ee7eb4a7c0f9e162bce33576b315ececbb6406837bf51f5

/-- The third point on the line with this slope through both points, reflected. -/
def chord (c : Curve) (slope x₁ y₁ x₂ : Nat) : Point :=
  let p := c.prime
  let x := (slope * slope + 2 * p - x₁ - x₂) % p
  affine x ((slope * (x₁ + p - x) + p - y₁) % p)

def add (c : Curve) : Point → Point → Point
  | infinity, q => q
  | q, infinity => q
  | affine x₁ y₁, affine x₂ y₂ =>
    let p := c.prime
    if x₁ = x₂ then
      if (y₁ + y₂) % p = 0 then infinity
      else chord c ((3 * x₁ * x₁ + c.coeffA) * Curve.inverse p (2 * y₁) % p) x₁ y₁ x₁
    else chord c ((y₂ + p - y₁) * Curve.inverse p (x₂ + p - x₁) % p) x₁ y₁ x₂

/-- Doubling and adding; `fuel` counts the bits of the multiplier. -/
def multiply (c : Curve) : (fuel n : Nat) → Point → Point
  | 0, _, _ => infinity
  | fuel + 1, n, q =>
    let rest := multiply c fuel (n / 2) (add c q q)
    if n % 2 = 1 then add c q rest else rest

def mul (c : Curve) (n : Nat) (q : Point) : Point := multiply c (Nat.log2 n + 1) n q

end Point

end SealedContainer
