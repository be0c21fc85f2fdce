import SealedContainer.Curve
import SealedContainer.Error

/-!
Keys on a curve. A public key is a point that satisfies the equation, a key pair a scalar with its
multiple of the generator; both facts are part of the types.

A public key is written as the byte 4 and its two coordinates. This is the only form that headers
and capsules hold; certificates may also hold the compressed forms.
-/

namespace SealedContainer

structure EcPublicKey where
  curve : Curve
  x : Nat
  y : Nat
  contains : curve.Contains x y
  deriving DecidableEq

namespace EcPublicKey

def ofCoordinates? (curve : Curve) (x y : Nat) : Option EcPublicKey :=
  if contains : curve.Contains x y then some ⟨curve, x, y, contains⟩ else none

def coordinate (key : EcPublicKey) (n : Nat) : Bytes := Bytes.ofNatBE key.curve.fieldSize n

def encode (key : EcPublicKey) : Bytes := 4 :: (key.coordinate key.x ++ key.coordinate key.y)

/-- The compressed form: the first byte tells an odd `y` from an even one. -/
def compressed (key : EcPublicKey) : Bytes := UInt8.ofNat (2 + key.y % 2) :: key.coordinate key.x

def encodeOn (curve : Curve) (key : EcPublicKey) : Except CryptoError Bytes :=
  if key.curve = curve then return key.encode else throw (.keyCurve key.curve curve)

def decode (curve : Curve) (bytes : Bytes) : Except PointFault EcPublicKey :=
  if bytes.length ≠ curve.pointSize then throw (.length curve bytes.length)
  else
    let lead := bytes.headD 0
    let coordinates := bytes.drop 1
    if lead ≠ 4 then throw (.leadByte lead)
    else
      match ofCoordinates? curve (Bytes.toNatBE (coordinates.take curve.fieldSize))
          (Bytes.toNatBE (coordinates.drop curve.fieldSize)) with
      | some key => return key
      | none => throw (.offCurve curve)

/-- The point at `x` whose `y` is the root that `pick` chooses: the odd, the even or the smaller. -/
def lift? (curve : Curve) (x : Nat) (pick : Nat → Nat → Nat) : Option EcPublicKey := do
  let y ← curve.root? (curve.cubic x)
  ofCoordinates? curve x (pick y (curve.prime - y))

def decodeAny? (curve : Curve) (bytes : Bytes) : Option EcPublicKey :=
  match bytes with
  | [] => none
  | lead :: rest =>
    if lead = 4 then (decode curve bytes).toOption
    else if rest.length ≠ curve.fieldSize then none
    else
      let x := Bytes.toNatBE rest
      if lead = 2 then lift? curve x fun y z => if y % 2 = 0 then y else z
      else if lead = 3 then lift? curve x fun y z => if y % 2 = 1 then y else z
      else if lead = 5 then lift? curve x min
      else none

def ofPoint (curve : Curve) (bytes : Bytes) : Except CryptoError EcPublicKey :=
  match decodeAny? curve bytes with
  | some key => return key
  | none => throw (.notPoint curve)

def ofScalar? (curve : Curve) (n : Nat) : Option EcPublicKey :=
  match Point.mul curve n (Point.generator curve) with
  | .affine x y => ofCoordinates? curve x y
  | .infinity => none

def point (key : EcPublicKey) : Point := .affine key.x key.y

/-- Whether a key is there and on `curve`. That it satisfies the equation is part of its type. -/
def isValidOn (curve : Curve) (key : Option EcPublicKey) : Bool :=
  match key with
  | some key => key.curve = curve
  | none => false

end EcPublicKey

structure EcKeyPair where
  publicKey : EcPublicKey
  scalar : Nat
  inRange : 0 < scalar ∧ scalar < publicKey.curve.order
  isMultiple : EcPublicKey.ofScalar? publicKey.curve scalar = some publicKey

namespace EcKeyPair

def curve (pair : EcKeyPair) : Curve := pair.publicKey.curve

theorem curve_of_ofScalar? {c : Curve} {n : Nat} {key : EcPublicKey}
    (found : EcPublicKey.ofScalar? c n = some key) : key.curve = c := by
  simp only [EcPublicKey.ofScalar?] at found
  split at found
  · simp only [EcPublicKey.ofCoordinates?] at found
    split at found
    · cases found; rfl
    · cases found
  · cases found

def ofScalar? (c : Curve) (n : Nat) : Option EcKeyPair :=
  if inRange : 0 < n ∧ n < c.order then
    match found : EcPublicKey.ofScalar? c n with
    | some key =>
      have same := curve_of_ofScalar? found
      some ⟨key, n, by rw [same]; exact inRange, by rw [same]; exact found⟩
    | none => none
  else none

def scalarBytes (pair : EcKeyPair) : Bytes := Bytes.ofNatBE pair.curve.fieldSize pair.scalar

/-- The `x` coordinate of the point that both sides of a key agreement find. -/
def agree (pair : EcKeyPair) (peer : EcPublicKey) : Except CryptoError Bytes :=
  if peer.curve ≠ pair.curve then throw (.agreementCurves pair.curve peer.curve)
  else
    match Point.mul pair.curve pair.scalar peer.point with
    | .affine x _ => return Bytes.ofNatBE pair.curve.fieldSize x
    | .infinity => return Bytes.ofNatBE pair.curve.fieldSize 0

def shown (pair : EcKeyPair) : String :=
  let curve := match pair.curve with
    | .secp384r1 => "Secp384r1"
    | .secp256r1 => "Secp256r1"
  "EcKeyPair \x7b curve: " ++ curve ++ ", secret: \"[REDACTED]\" \x7d"

end EcKeyPair

end SealedContainer
