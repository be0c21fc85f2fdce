import Mathlib.Data.Int.ModEq
import Mathlib.Tactic.Ring
import SealedContainer.Proofs.Container.Framing
import SealedContainer.Proofs.Key.Codec

/-!
Which bytes are a public key on a curve. Main statement: `decoded_exactly`. Two reduced coordinates
of the size of the field that satisfy the equation of the curve, behind the byte 4, are the one form
of a key. Whatever else there is to read is refused, for its form or for what it stands for.
`decodeInBounds` reads the same with an outcome of its own for every access out of range.
-/

namespace SealedContainer

open Bytes Outcome

namespace Curve

theorem three_le_prime (c : Curve) : 3 ≤ c.prime := by cases c <;> decide +kernel

/-- The equation `y² = x³ - 3x + b` over the integers, whose coefficients are not reduced. -/
def Equation (c : Curve) (x y : Int) : Prop :=
  y ^ 2 ≡ x ^ 3 - 3 * x + c.coeffB [ZMOD c.prime]

theorem contains_iff (c : Curve) (x y : Nat) :
    c.Contains x y ↔ x < c.prime ∧ y < c.prime ∧ c.Equation x y := by
  have coefficient : ((c.coeffA : Nat) : Int) = c.prime - 3 := by
    rw [coeffA, Int.ofNat_sub c.three_le_prime]
    rfl
  have reduced : ((x * x * x + c.coeffA * x + c.coeffB : Nat) : Int) ≡
      x ^ 3 - 3 * x + c.coeffB [ZMOD c.prime] := by
    apply Int.modEq_iff_dvd.mpr
    refine ⟨-x, ?_⟩
    push_cast
    rw [coefficient]
    ring
  have square : ((y * y : Nat) : Int) = (y : Int) ^ 2 := by
    push_cast
    ring
  apply and_congr_right'
  apply and_congr_right'
  calc y * y % c.prime = (x * x * x + c.coeffA * x + c.coeffB) % c.prime
    _ ↔ ((y * y : Nat) : Int) ≡ (x * x * x + c.coeffA * x + c.coeffB : Nat) [ZMOD c.prime] :=
      Int.natCast_modEq_iff.symm
    _ ↔ c.Equation x y := by
      rw [square, Equation]
      exact ⟨fun same => same.trans reduced, fun same => same.trans reduced.symm⟩

end Curve

namespace EcPublicKey

variable {curve : Curve} {bytes : Bytes} {key : EcPublicKey}

def Uncompressed (curve : Curve) (x y bytes : Bytes) : Prop :=
  bytes = 4 :: (x ++ y) ∧ x.length = curve.fieldSize ∧ y.length = curve.fieldSize

def OnCurve (curve : Curve) (x y : Bytes) : Prop :=
  toNatBE x < curve.prime ∧ toNatBE y < curve.prime ∧ curve.Equation (toNatBE x) (toNatBE y)

theorem uncompressed_iff :
    (∃ x y, Uncompressed curve x y bytes) ↔
      bytes.length = curve.pointSize ∧ bytes.head? = some 4 := by
  constructor
  · rintro ⟨x, y, rfl, first, second⟩
    refine ⟨?_, rfl⟩
    rw [List.length_cons, List.length_append, first, second, Curve.pointSize]
    omega
  · rintro ⟨size, lead⟩
    obtain ⟨rest, rfl⟩ := List.head?_eq_some_iff.mp lead
    have long : rest.length = 2 * curve.fieldSize := by simpa [Curve.pointSize] using size
    refine ⟨rest.take curve.fieldSize, rest.drop curve.fieldSize, ?_, ?_, ?_⟩
    · rw [List.take_append_drop]
    · exact List.length_take_of_le (by omega)
    · rw [List.length_drop]
      omega

section Form

variable {x y : Bytes} (form : Uncompressed curve x y bytes)

include form

theorem decode_of_uncompressed :
    decode curve bytes =
      match ofCoordinates? curve (toNatBE x) (toNatBE y) with
      | some key => .ok key
      | none => .error (.offCurve curve) := by
  have size := (uncompressed_iff.mp ⟨x, y, form⟩).1
  obtain ⟨rfl, first, second⟩ := form
  simp only [decode, if_neg (Classical.not_not.mpr size), List.headD_cons, List.drop_succ_cons,
    List.drop_zero, ← first, List.take_left, List.drop_left]
  rfl

theorem decode_of_onCurve (on : OnCurve curve x y) : ∃ key, decode curve bytes = .ok key := by
  have contains := (Curve.contains_iff curve _ _).mpr on
  rw [decode_of_uncompressed form, ofCoordinates?, dif_pos contains]
  exact ⟨_, rfl⟩

theorem decode_of_offCurve (off : ¬ OnCurve curve x y) :
    ∃ fault, decode curve bytes = .error fault ∧ fault.kind = .invalidKey := by
  have missing := mt (Curve.contains_iff curve _ _).mp off
  rw [decode_of_uncompressed form, ofCoordinates?, dif_neg missing]
  exact ⟨_, rfl, rfl⟩

end Form

theorem decode_of_not_uncompressed (form : ¬ ∃ x y, Uncompressed curve x y bytes) :
    ∃ fault, decode curve bytes = .error fault ∧ fault.kind = .encoding := by
  rw [uncompressed_iff] at form
  by_cases size : bytes.length = curve.pointSize
  · cases bytes with
    | nil => exact absurd size (by cases curve <;> decide)
    | cons lead rest =>
        have other : lead ≠ 4 := by simpa [size] using form
        exact ⟨.leadByte lead, by simp [decode, size, other], rfl⟩
  · exact ⟨.length curve bytes.length, by simp [decode, size], rfl⟩

/-- Reading comes to a key, to a point that is none, or to a form that no point has. -/
theorem decode_cases (curve : Curve) (bytes : Bytes) :
    (∃ x y key, Uncompressed curve x y bytes ∧ OnCurve curve x y ∧ decode curve bytes = .ok key) ∨
      (∃ x y fault, Uncompressed curve x y bytes ∧ ¬ OnCurve curve x y ∧
        decode curve bytes = .error fault ∧ fault.kind = .invalidKey) ∨
      (¬ ∃ x y, Uncompressed curve x y bytes) ∧
        ∃ fault, decode curve bytes = .error fault ∧ fault.kind = .encoding := by
  by_cases form : ∃ x y, Uncompressed curve x y bytes
  · obtain ⟨x, y, form⟩ := form
    by_cases on : OnCurve curve x y
    · obtain ⟨key, read⟩ := decode_of_onCurve form on
      exact .inl ⟨x, y, key, form, on, read⟩
    · obtain ⟨fault, refused, kind⟩ := decode_of_offCurve form on
      exact .inr (.inl ⟨x, y, fault, form, on, refused, kind⟩)
  · exact .inr (.inr ⟨form, decode_of_not_uncompressed form⟩)

theorem exists_decode_eq_ok_iff :
    (∃ key, decode curve bytes = .ok key) ↔
      ∃ x y, Uncompressed curve x y bytes ∧ OnCurve curve x y := by
  constructor
  · rintro ⟨key, read⟩
    rcases decode_cases curve bytes with
      ⟨x, y, _, form, on, _⟩ | ⟨_, _, _, _, _, refused, _⟩ | ⟨_, _, refused, _⟩
    · exact ⟨x, y, form, on⟩
    · simp [refused] at read
    · simp [refused] at read
  · rintro ⟨x, y, form, on⟩
    exact decode_of_onCurve form on

theorem decode_wrong_form_iff :
    (∃ fault, decode curve bytes = .error fault ∧ fault.kind = .encoding) ↔
      bytes.length ≠ curve.pointSize ∨ bytes.head? ≠ some 4 := by
  have form_iff : (¬ ∃ x y, Uncompressed curve x y bytes) ↔
      bytes.length ≠ curve.pointSize ∨ bytes.head? ≠ some 4 :=
    (not_congr uncompressed_iff).trans Classical.not_and_iff_not_or_not
  rw [← form_iff]
  constructor
  · rintro ⟨fault, read, kind⟩
    rcases decode_cases curve bytes with
      ⟨_, _, _, _, _, read'⟩ | ⟨_, _, other, _, _, refused, kind'⟩ | ⟨form, _⟩
    · simp [read'] at read
    · obtain rfl : other = fault := by simpa [refused] using read
      simp [kind] at kind'
    · exact form
  · exact decode_of_not_uncompressed

theorem decode_no_point_iff :
    (∃ fault, decode curve bytes = .error fault ∧ fault.kind = .invalidKey) ↔
      ∃ x y, Uncompressed curve x y bytes ∧ ¬ OnCurve curve x y := by
  constructor
  · rintro ⟨fault, read, kind⟩
    rcases decode_cases curve bytes with
      ⟨_, _, _, _, _, read'⟩ | ⟨x, y, _, form, off, _⟩ | ⟨_, other, refused, kind'⟩
    · simp [read'] at read
    · exact ⟨x, y, form, off⟩
    · obtain rfl : other = fault := by simpa [refused] using read
      simp [kind] at kind'
  · rintro ⟨x, y, form, off⟩
    exact decode_of_offCurve form off

/-- Reads the bytes of a key at their places. An index or a slice that is out of range, a coordinate
that does not fill its field and a key that does not pass for one afterwards give nothing. -/
def decodeInBounds (curve : Curve) (bytes : Bytes) : Option (Except PointFault EcPublicKey) :=
  if bytes.length ≠ curve.pointSize then some (.error (.length curve bytes.length))
  else do
    let lead ← bytes[0]?
    if lead ≠ 4 then return .error (.leadByte lead)
    else
      let size := curve.fieldSize
      let x ← Frame.filling? size (← Frame.slice? bytes 1 (size + 1))
      let y ← Frame.filling? size (← Frame.slice? bytes (size + 1) bytes.length)
      match ofCoordinates? curve (toNatBE x) (toNatBE y) with
      | none => return .error (.offCurve curve)
      | some key => if isValidOn curve (some key) then return .ok key else none

theorem decodeInBounds_eq (curve : Curve) (bytes : Bytes) :
    decodeInBounds curve bytes = some (decode curve bytes) := by
  by_cases size : bytes.length = curve.pointSize
  case neg => simp [decodeInBounds, decode, size]
  cases bytes with
  | nil => exact absurd size (by cases curve <;> decide)
  | cons lead rest =>
      by_cases four : lead = 4
      case neg => simp [decodeInBounds, decode, size, four, List.getElem?_cons_zero]
      subst four
      have long : rest.length = 2 * curve.fieldSize := by simpa [Curve.pointSize] using size
      obtain ⟨x, y, same, first, second⟩ := uncompressed_iff.mpr ⟨size, rfl⟩
      rw [decode_of_uncompressed ⟨same, first, second⟩]
      obtain rfl : rest = x ++ y := (List.cons.inj same).2
      have front : Frame.slice? (4 :: (x ++ y)) 1 (curve.fieldSize + 1) = some x := by
        rw [Frame.slice?_eq_some (by omega) (by rw [List.length_cons]; omega), List.take_succ_cons,
          List.drop_succ_cons, List.drop_zero, ← first, List.take_left]
      have back : Frame.slice? (4 :: (x ++ y)) (curve.fieldSize + 1) (4 :: (x ++ y)).length =
          some y := by
        rw [Frame.slice?_eq_some (by rw [List.length_cons]; omega) (Nat.le_refl _), List.take_length,
          List.drop_succ_cons, ← first, List.drop_left]
      simp only [decodeInBounds, size, ne_eq, not_true, if_false, List.getElem?_cons_zero,
        Option.bind_eq_bind, Option.bind_some]
      rw [← size, front, Option.bind_some, back]
      simp only [Option.bind_some, Frame.filling?, if_pos first, if_pos second]
      cases found : ofCoordinates? curve (toNatBE x) (toNatBE y) with
      | none => rfl
      | some key => simp [isValidOn, (eq_of_ofCoordinates? found).1]

theorem encodeOn_eq_ok : encodeOn curve key = .ok bytes ↔ key.curve = curve ∧ bytes = key.encode := by
  unfold encodeOn
  by_cases same : key.curve = curve <;> simp [same, eq_comm]

theorem decode_eq_ok_iff : decode curve bytes = .ok key ↔ encodeOn curve key = .ok bytes := by
  rw [encodeOn_eq_ok]
  constructor
  · exact eq_encode_of_decode
  · rintro ⟨rfl, rfl⟩
    exact decode_encode key

/--
Bytes are read as a key on a curve if and only if they are the uncompressed form of a point of the
curve, in reduced coordinates. The form is then the one that is written for that key, and every key
is read back from its own. Bytes of another form are wrongly encoded, bytes of this form with other
coordinates are no valid key, and no access is out of range whatever the bytes. A key on the other
curve is not written.
-/
theorem decoded_exactly (curve : Curve) (bytes : Bytes) :
    ((∃ key, decode curve bytes = .ok key) ↔
        ∃ x y, Uncompressed curve x y bytes ∧ OnCurve curve x y) ∧
      (∀ key, decode curve bytes = .ok key ↔ encodeOn curve key = .ok bytes) ∧
      ((∃ fault, decode curve bytes = .error fault ∧ fault.kind = .encoding) ↔
        bytes.length ≠ curve.pointSize ∨ bytes.head? ≠ some 4) ∧
      ((∃ fault, decode curve bytes = .error fault ∧ fault.kind = .invalidKey) ↔
        ∃ x y, Uncompressed curve x y bytes ∧ ¬ OnCurve curve x y) ∧
      decodeInBounds curve bytes = some (decode curve bytes) ∧
      (∀ key : EcPublicKey, key.curve = curve ↔
        ∃ written, encodeOn curve key = .ok written ∧ decode curve written = .ok key) ∧
      ∀ key : EcPublicKey, (∃ e, encodeOn curve key = .error e ∧ e.kind = .invalidArgument) ↔
        key.curve ≠ curve := by
  refine ⟨exists_decode_eq_ok_iff, fun _ => decode_eq_ok_iff, decode_wrong_form_iff,
    decode_no_point_iff, decodeInBounds_eq curve bytes, ?_, ?_⟩
  · intro key
    simp only [decode_eq_ok_iff, and_self]
    constructor
    · intro same
      exact ⟨key.encode, encodeOn_eq_ok.mpr ⟨same, rfl⟩⟩
    · rintro ⟨written, encoded⟩
      exact (encodeOn_eq_ok.mp encoded).1
  · intro key
    by_cases same : key.curve = curve
    · simp [encodeOn, same]
    · simp [encodeOn, same, CryptoError.kind]

end EcPublicKey

end SealedContainer
