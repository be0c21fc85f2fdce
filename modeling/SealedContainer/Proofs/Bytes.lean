import SealedContainer.Bytes

/-!
Numbers and masks in bytes, the other way round: bytes are read as a number below the bound of
their width and come back when it is written in that width, or without zeros in front, and a mask
laid on twice is gone. The bytes of a text are those of its characters, and for ASCII each byte is one
of them.
-/

namespace SealedContainer.Bytes

theorem toNatLE_lt (bytes : Bytes) : toNatLE bytes < 256 ^ bytes.length := by
  induction bytes with
  | nil => simp [toNatLE]
  | cons b rest ih =>
      have low : b.toNat < 256 := b.toNat_lt
      rw [toNatLE, List.length_cons, Nat.pow_succ]
      omega

theorem toNatBE_lt (bytes : Bytes) : toNatBE bytes < 256 ^ bytes.length := by
  have reversed := toNatLE_lt bytes.reverse
  rwa [← toNatBE_reverse, List.reverse_reverse, List.length_reverse] at reversed

theorem ofNatLE_toNatLE (bytes : Bytes) : ofNatLE bytes.length (toNatLE bytes) = bytes := by
  induction bytes with
  | nil => rfl
  | cons b rest ih =>
      have low : b.toNat < 256 := b.toNat_lt
      have quotient : (b.toNat + 256 * toNatLE rest) / 256 = toNatLE rest := by omega
      have first : UInt8.ofNat (b.toNat + 256 * toNatLE rest) = b := by
        apply UInt8.toNat_inj.mp
        rw [UInt8.toNat_ofNat']
        omega
      rw [toNatLE, List.length_cons, ofNatLE, quotient, ih, first]

theorem ofNatBE_toNatBE (bytes : Bytes) : ofNatBE bytes.length (toNatBE bytes) = bytes := by
  have reversed := ofNatLE_toNatLE bytes.reverse
  rw [← toNatBE_reverse, List.reverse_reverse, List.length_reverse] at reversed
  rw [ofNatBE, reversed, List.reverse_reverse]

theorem ofNatLE_mod (width n : Nat) : ofNatLE width (n % 256 ^ width) = ofNatLE width n := by
  have written := ofNatLE_toNatLE (ofNatLE width n)
  rwa [length_ofNatLE, toNatLE_ofNatLE] at written

theorem toNatLE_ofNatLE_of_lt {width n : Nat} (fits : n < 256 ^ width) :
    toNatLE (ofNatLE width n) = n := by
  rw [toNatLE_ofNatLE, Nat.mod_eq_of_lt fits]

theorem toNatBE_ofNatBE_of_lt {width n : Nat} (fits : n < 256 ^ width) :
    toNatBE (ofNatBE width n) = n := by
  rw [toNatBE_ofNatBE, Nat.mod_eq_of_lt fits]

theorem foldl_eq (n : Nat) (bytes : Bytes) :
    bytes.foldl (fun n b => 256 * n + b.toNat) n = n * 256 ^ bytes.length + toNatBE bytes := by
  induction bytes generalizing n with
  | nil => simp [toNatBE]
  | cons b rest ih =>
      rw [toNatBE, List.foldl_cons, List.foldl_cons, ih, ih (256 * 0 + b.toNat), List.length_cons,
        Nat.pow_succ, Nat.add_mul, Nat.mul_zero, Nat.zero_add, Nat.mul_comm 256, Nat.mul_assoc,
        Nat.mul_comm 256, Nat.add_assoc]

theorem toNatBE_cons (b : UInt8) (rest : Bytes) :
    toNatBE (b :: rest) = b.toNat * 256 ^ rest.length + toNatBE rest := by
  rw [toNatBE, List.foldl_cons, foldl_eq, Nat.mul_zero, Nat.zero_add]

theorem pow_le_toNatBE {b : UInt8} {rest : Bytes} (nonzero : b ≠ 0) :
    256 ^ rest.length ≤ toNatBE (b :: rest) := by
  have positive : 0 < b.toNat := Nat.pos_of_ne_zero fun zero => nonzero (UInt8.toNat_inj.mp zero)
  rw [toNatBE_cons]
  exact Nat.le_add_right_of_le (Nat.le_mul_of_pos_left _ positive)

/-- Without zeros in front there is one way to write a number. -/
theorem eq_of_toNatBE {a b : Bytes} (first : a.head?.any (· ≠ 0) = true)
    (second : b.head?.any (· ≠ 0) = true) (same : toNatBE a = toNatBE b) : a = b := by
  have length_le {a b : Bytes} (first : a.head?.any (· ≠ 0) = true)
      (same : toNatBE a = toNatBE b) : a.length ≤ b.length := by
    cases a with
    | nil => exact Nat.zero_le _
    | cons c rest =>
        have low : 256 ^ rest.length ≤ toNatBE b := same ▸ pow_le_toNatBE (by simpa using first)
        have below := Nat.lt_of_le_of_lt low (toNatBE_lt b)
        exact (Nat.pow_lt_pow_iff_right (by decide)).mp below
  have sizes : a.length = b.length :=
    Nat.le_antisymm (length_le first same) (length_le second same.symm)
  calc a
    _ = ofNatBE a.length (toNatBE a) := (ofNatBE_toNatBE a).symm
    _ = ofNatBE b.length (toNatBE b) := by rw [sizes, same]
    _ = b := ofNatBE_toNatBE b

theorem ofString_eq_flatMap (s : String) :
    ofString s = s.toList.flatMap String.utf8EncodeChar := by
  have encoded : s.toUTF8 = (s.toList.flatMap String.utf8EncodeChar).toByteArray :=
    String.utf8Encode_toList.symm
  rw [ofString, encoded, List.data_toByteArray]

theorem toNat_letter (b : UInt8) : (Char.ofNat b.toNat).toNat = b.toNat := by
  have valid : b.toNat.isValidChar := .inl (Nat.lt_trans b.toNat_lt (by decide))
  rw [Char.ofNat, dif_pos valid]
  rfl

theorem letter_injective {a b : UInt8} (same : Char.ofNat a.toNat = Char.ofNat b.toNat) : a = b := by
  apply UInt8.toNat_inj.mp
  calc a.toNat
    _ = (Char.ofNat a.toNat).toNat := (toNat_letter a).symm
    _ = (Char.ofNat b.toNat).toNat := congrArg Char.toNat same
    _ = b.toNat := toNat_letter b

theorem utf8EncodeChar_of_ascii {c : Char} (ascii : c.toNat < 128) :
    ∃ b : UInt8, String.utf8EncodeChar c = [b] ∧ b.toNat = c.toNat := by
  have width : c.utf8Size = 1 := by
    apply Char.utf8Size_eq_one_iff.mpr
    exact UInt32.le_iff_toNat_le.mpr (Nat.le_of_lt_succ ascii)
  refine ⟨c.val.toUInt8, String.utf8EncodeChar_eq_singleton width, ?_⟩
  rw [UInt32.toNat_toUInt8]
  exact Nat.mod_eq_of_lt (Nat.lt_trans ascii (by decide))

theorem le_of_mem_utf8EncodeChar {c : Char} (beyond : 128 ≤ c.toNat) {b : UInt8}
    (member : b ∈ String.utf8EncodeChar c) : 128 ≤ b.toNat := by
  have wide : ¬ c.val.toNat ≤ 0x7f := Nat.not_le.mpr beyond
  have high (n low : Nat) (small : low + n < 256) : (UInt8.ofNat (low + n)).toNat = low + n := by
    rw [UInt8.toNat_ofNat']
    exact Nat.mod_eq_of_lt small
  simp only [String.utf8EncodeChar, if_neg wide] at member
  split at member
  next =>
    simp only [List.mem_cons, List.not_mem_nil, or_false] at member
    rcases member with rfl | rfl <;> rw [high] <;> omega
  next =>
    split at member
    next =>
      simp only [List.mem_cons, List.not_mem_nil, or_false] at member
      rcases member with rfl | rfl | rfl <;> rw [high] <;> omega
    next =>
      simp only [List.mem_cons, List.not_mem_nil, or_false] at member
      rcases member with rfl | rfl | rfl | rfl <;> rw [high] <;> omega

theorem map_letter_ofString {s : String} (ascii : ∀ c ∈ s.toList, c.toNat < 128) :
    (ofString s).map (fun b => Char.ofNat b.toNat) = s.toList := by
  have letter (c : Char) (member : c ∈ s.toList) :
      (String.utf8EncodeChar c).map (fun b => Char.ofNat b.toNat) = [c] := by
    obtain ⟨b, single, value⟩ := utf8EncodeChar_of_ascii (ascii c member)
    rw [single, List.map_singleton, value, Char.ofNat_toNat]
  calc (ofString s).map (fun b => Char.ofNat b.toNat)
    _ = s.toList.flatMap fun c => (String.utf8EncodeChar c).map fun b => Char.ofNat b.toNat := by
      rw [ofString_eq_flatMap, List.map_flatMap]
    _ = s.toList.flatMap fun c => [c] := by
      rw [List.flatMap_def, List.map_congr_left letter, ← List.flatMap_def]
    _ = s.toList := List.flatMap_singleton' _

theorem xor_cons (x y : UInt8) (a b : Bytes) : xor (x :: a) (y :: b) = (x ^^^ y) :: xor a b := rfl

@[simp] theorem length_xor (a b : Bytes) : (xor a b).length = min a.length b.length := by
  simp [xor]

theorem xor_xor (a mask : Bytes) (covered : a.length ≤ mask.length) :
    xor (xor a mask) mask = a := by
  induction a generalizing mask with
  | nil => simp [xor]
  | cons x a ih =>
      cases mask with
      | nil => simp at covered
      | cons y mask =>
          have byte : (x ^^^ y) ^^^ y = x := by
            rw [UInt8.xor_assoc, UInt8.xor_self, UInt8.xor_zero]
          rw [xor_cons, xor_cons, byte, ih mask (by simpa using covered)]

end SealedContainer.Bytes
