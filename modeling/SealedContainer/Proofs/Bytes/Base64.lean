import SealedContainer.Bytes.Base64

/-!
Base64 is read strictly. Main statement: `decode_eq_some_iff`, each byte string has one text that is
read as it, the one that is written.
-/

namespace SealedContainer.Base64

theorem digit?_digit {n : Nat} (small : n < 64) : digit? (digit n) = some n := by
  have each : ∀ n < 64, digit? (digit n) = some n := by decide +kernel
  exact each n small

theorem toNat_lt_of_digit? {c : Char} {n : Nat} (read : digit? c = some n) : c.toNat < 128 := by
  apply Nat.lt_of_not_le
  intro large
  have above (d : Char) (ascii : d.toNat < 128) : ¬ c ≤ d := by
    intro below
    have numbers : c.toNat ≤ d.toNat := UInt32.le_iff_toNat_le.mp below
    omega
  have other (d : Char) (ascii : d.toNat < 128) : c ≠ d := by
    rintro rfl
    omega
  simp only [digit?, above 'Z' (by decide), above 'z' (by decide), above '9' (by decide),
    other '+' (by decide), other '/' (by decide), and_false, if_false] at read
  cases read

theorem digit_of_digit? {c : Char} {n : Nat} (read : digit? c = some n) : n < 64 ∧ c = digit n := by
  have each : ∀ k < 128, ∀ n ∈ digit? (Char.ofNat k), n < 64 ∧ Char.ofNat k = digit n := by
    decide +kernel
  have found := each c.toNat (toNat_lt_of_digit? read) n
  rw [Char.ofNat_toNat] at found
  exact found read

theorem digit_ne_padding {n : Nat} (small : n < 64) : digit n ≠ '=' := by
  intro same
  have read := digit?_digit small
  rw [same] at read
  cases read

theorem decode_encode (bytes : Bytes) : decode (encode bytes) = some bytes := by
  fun_induction encode bytes with
  | case1 => rfl
  | case2 a =>
      have boundA := a.toNat_lt
      have first := digit?_digit (show a.toNat / 4 < 64 by omega)
      have second := digit?_digit (show a.toNat % 4 * 16 < 64 by omega)
      have even : a.toNat % 4 * 16 % 16 = 0 := by omega
      simp only [decode, decodeLast, if_true, first, second, if_pos even, Option.bind_eq_bind,
        Option.bind_some]
      rw [(UInt8.ofNat_eq_iff_mod_eq_toNat _ a).mpr (by omega)]
      rfl
  | case3 a b =>
      have boundA := a.toNat_lt
      have boundB := b.toNat_lt
      have small : b.toNat % 16 * 4 < 64 := by omega
      have first := digit?_digit (show a.toNat / 4 < 64 by omega)
      have second := digit?_digit (show a.toNat % 4 * 16 + b.toNat / 16 < 64 by omega)
      have third := digit?_digit small
      have even : b.toNat % 16 * 4 % 4 = 0 := by omega
      simp only [decode, decodeLast, if_true, first, second, third, if_neg (digit_ne_padding small),
        if_pos even, Option.bind_eq_bind, Option.bind_some]
      rw [(UInt8.ofNat_eq_iff_mod_eq_toNat _ a).mpr (by omega),
        (UInt8.ofNat_eq_iff_mod_eq_toNat _ b).mpr (by omega)]
      rfl
  | case4 a b c rest ih =>
      have boundA := a.toNat_lt
      have boundB := b.toNat_lt
      have boundC := c.toNat_lt
      have small : c.toNat % 64 < 64 := by omega
      have first := digit?_digit (show a.toNat / 4 < 64 by omega)
      have second := digit?_digit (show a.toNat % 4 * 16 + b.toNat / 16 < 64 by omega)
      have third := digit?_digit (show b.toNat % 16 * 4 + c.toNat / 64 < 64 by omega)
      have fourth := digit?_digit small
      simp only [List.cons_append, List.nil_append, decode, first, second, third, fourth, ih,
        if_neg (digit_ne_padding small), Option.bind_eq_bind, Option.bind_some]
      rw [(UInt8.ofNat_eq_iff_mod_eq_toNat _ a).mpr (by omega),
        (UInt8.ofNat_eq_iff_mod_eq_toNat _ b).mpr (by omega),
        (UInt8.ofNat_eq_iff_mod_eq_toNat _ c).mpr (by omega)]
      rfl

theorem eq_encode_of_decodeLast {a b c : Char} {bytes : Bytes}
    (read : decodeLast a b c = some bytes) : [a, b, c, '='] = encode bytes := by
  simp only [decodeLast, Option.bind_eq_bind, Option.bind_eq_some_iff] at read
  obtain ⟨m, first, n, second, read⟩ := read
  obtain ⟨smallM, rfl⟩ := digit_of_digit? first
  obtain ⟨smallN, rfl⟩ := digit_of_digit? second
  split at read
  next padded =>
    split at read
    next even =>
      cases read
      have high : (4 * m + n / 16) % 2 ^ 8 / 4 = m := by omega
      have low : (4 * m + n / 16) % 2 ^ 8 % 4 * 16 = n := by omega
      rw [padded, encode, UInt8.toNat_ofNat', high, low]
    next => cases read
  next =>
    obtain ⟨k, third, even⟩ := Option.bind_eq_some_iff.mp read
    obtain ⟨smallK, rfl⟩ := digit_of_digit? third
    split at even
    next even' =>
      cases even
      have high : (4 * m + n / 16) % 2 ^ 8 / 4 = m := by omega
      have middle : (4 * m + n / 16) % 2 ^ 8 % 4 * 16 + (16 * n + k / 4) % 2 ^ 8 / 16 = n := by omega
      have low : (16 * n + k / 4) % 2 ^ 8 % 16 * 4 = k := by omega
      rw [encode, UInt8.toNat_ofNat', UInt8.toNat_ofNat', high, middle, low]
    next => cases even

theorem eq_encode_of_decode {digits : List Char} {bytes : Bytes}
    (read : decode digits = some bytes) : digits = encode bytes := by
  fun_induction decode digits generalizing bytes with
  | case1 =>
      cases read
      rfl
  | case2 a b c => exact eq_encode_of_decodeLast read
  | case3 => cases read
  | case5 => cases read
  | case4 a b c d rest _ ih =>
      simp only [Option.bind_eq_bind, Option.bind_eq_some_iff] at read
      obtain ⟨m, first, n, second, k, third, l, fourth, more, later, read⟩ := read
      obtain ⟨smallM, rfl⟩ := digit_of_digit? first
      obtain ⟨smallN, rfl⟩ := digit_of_digit? second
      obtain ⟨smallK, rfl⟩ := digit_of_digit? third
      obtain ⟨smallL, rfl⟩ := digit_of_digit? fourth
      cases read
      have one : (4 * m + n / 16) % 2 ^ 8 / 4 = m := by omega
      have two : (4 * m + n / 16) % 2 ^ 8 % 4 * 16 + (16 * n + k / 4) % 2 ^ 8 / 16 = n := by omega
      have three : (16 * n + k / 4) % 2 ^ 8 % 16 * 4 + (64 * k + l) % 2 ^ 8 / 64 = k := by omega
      have four : (64 * k + l) % 2 ^ 8 % 64 = l := by omega
      rw [encode, UInt8.toNat_ofNat', UInt8.toNat_ofNat', UInt8.toNat_ofNat', one, two, three, four,
        ← ih later]
      rfl

theorem visible_digit (n : Nat) : 32 < (digit n).toNat ∧ (digit n).toNat < 128 := by
  have alphabetic : ∀ c ∈ alphabet, (32 < c.toNat && c.toNat < 128) = true :=
    List.all_eq_true.mp (by decide +kernel)
  rw [digit, List.getD_eq_getElem?_getD]
  cases found : alphabet[n]? with
  | none => decide
  | some c => simpa using alphabetic c (List.mem_of_getElem? found)

theorem visible_encode (bytes : Bytes) : ∀ c ∈ encode bytes, 32 < c.toNat ∧ c.toNat < 128 := by
  have padding : 32 < '='.toNat ∧ '='.toNat < 128 := by decide
  fun_induction encode bytes with
  | case1 => exact List.forall_mem_nil _
  | case2 a =>
      simp only [List.forall_mem_cons]
      exact ⟨visible_digit _, visible_digit _, padding, padding, List.forall_mem_nil _⟩
  | case3 a b =>
      simp only [List.forall_mem_cons]
      exact ⟨visible_digit _, visible_digit _, visible_digit _, padding, List.forall_mem_nil _⟩
  | case4 a b c rest ih =>
      simp only [List.cons_append, List.nil_append, List.forall_mem_cons]
      exact ⟨visible_digit _, visible_digit _, visible_digit _, visible_digit _, ih⟩

theorem decode_eq_some_iff {digits : List Char} {bytes : Bytes} :
    decode digits = some bytes ↔ digits = encode bytes := by
  constructor
  · exact eq_encode_of_decode
  · intro written
    rw [written, decode_encode]

end SealedContainer.Base64
