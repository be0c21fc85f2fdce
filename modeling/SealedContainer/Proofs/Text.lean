import Mathlib.Data.List.Induction
import Mathlib.Data.List.TakeWhile
import SealedContainer.Text

/-!
What is trimmed off is all that can be trimmed at either end, and nothing in between. Numbers in
decimal digits are read back, whatever zeros stand in front.
-/

namespace SealedContainer

variable {α : Type} {p : α → Bool}

theorem trimBoth_split (p : α → Bool) (l : List α) :
    ∃ front back, l = front ++ trimBoth p l ++ back ∧ ∀ a ∈ front ++ back, p a = true := by
  have cut (l : List α) : l.takeWhile p ++ l.dropWhile p = l := List.takeWhile_append_dropWhile
  let rest := l.dropWhile p
  refine ⟨l.takeWhile p, (rest.reverse.takeWhile p).reverse, ?_, ?_⟩
  · calc l
      _ = l.takeWhile p ++ rest := (cut l).symm
      _ = l.takeWhile p ++ (rest.reverse.takeWhile p ++ rest.reverse.dropWhile p).reverse := by
        rw [cut rest.reverse, List.reverse_reverse]
      _ = l.takeWhile p ++ trimBoth p l ++ (rest.reverse.takeWhile p).reverse := by
        rw [List.reverse_append, ← List.append_assoc, trimBoth]
  · intro a member
    cases List.mem_append.mp member with
    | inl front => exact List.mem_takeWhile_imp front
    | inr back => exact List.mem_takeWhile_imp (List.mem_reverse.mp back)

theorem trimBoth_of_ends {front inner back : List α} (outer : ∀ a ∈ front ++ back, p a = true)
    (first : ∀ a ∈ inner.head?, p a = false) (last : ∀ a ∈ inner.getLast?, p a = false) :
    trimBoth p (front ++ inner ++ back) = inner := by
  cases inner with
  | nil =>
      -- With nothing inside, what is dropped at the front goes on to the end.
      rw [List.append_nil, trimBoth, List.dropWhile_eq_nil_iff.mpr outer]
      rfl
  | cons a rest =>
      have before : ∀ a ∈ front, p a = true := fun a member => outer a (List.mem_append_left _ member)
      have behind : ∀ a ∈ back.reverse, p a = true := fun a member =>
        outer a (List.mem_append_right _ (List.mem_reverse.mp member))
      have start : ((a :: rest) ++ back).dropWhile p = (a :: rest) ++ back :=
        List.dropWhile_cons_of_neg (by simp [first a rfl])
      have stop : (a :: rest).reverse.dropWhile p = (a :: rest).reverse := by
        apply List.dropWhile_eq_self_iff.mpr
        intro inside
        have kept := last ((a :: rest).reverse[0]) (by
          rw [← List.head?_reverse, List.head?_eq_getElem?, List.getElem?_eq_getElem inside]
          rfl)
        rw [kept]
        exact Bool.false_ne_true
      rw [trimBoth, List.append_assoc, List.dropWhile_append_of_pos before, start,
        List.reverse_append, List.dropWhile_append_of_pos behind, stop, List.reverse_reverse]

theorem trimBoth_of_split {front inner back : List α} (outer : ∀ a ∈ front ++ back, p a = true)
    (solid : ∀ a ∈ inner, p a = false) : trimBoth p (front ++ inner ++ back) = inner :=
  trimBoth_of_ends outer (fun a first => solid a (List.mem_of_mem_head? first))
    (fun a last => solid a (List.mem_of_mem_getLast? last))

theorem trimmed_around {front back text : String}
    (blank : ∀ c ∈ front.toList ++ back.toList, isBlank c = true)
    (solid : ∀ c ∈ text.toList, isBlank c = false) : trimmed (front ++ text ++ back) = text.toList := by
  rw [trimmed, String.toList_append, String.toList_append]
  exact trimBoth_of_split blank solid

end SealedContainer

namespace SealedContainer.Decimal

theorem value_eq (digits : List Char) : value digits = Nat.ofDigitChars 10 digits 0 := by
  rw [Nat.ofDigitChars_eq_foldl]
  rfl

theorem value_concat (digits : List Char) (c : Char) :
    value (digits ++ [c]) = 10 * value digits + digitValue c := by
  rw [value, List.foldl_append]
  rfl

theorem value_lt {digits : List Char} (all : ∀ c ∈ digits, c.isDigit = true) :
    value digits < 10 ^ digits.length := by
  induction digits using List.reverseRecOn with
  | nil => exact Nat.one_pos
  | append_singleton digits c ih =>
      rw [List.forall_mem_append, List.forall_mem_singleton] at all
      have before := ih all.1
      have digit := all.2
      simp only [Char.isDigit, Bool.and_eq_true, decide_eq_true_eq, ge_iff_le,
        UInt32.le_iff_toNat_le] at digit
      have small : digitValue c < 10 := by
        simp only [digitValue, Char.toNat, Char.reduceVal, UInt32.reduceToNat] at digit ⊢
        omega
      rw [value_concat, List.length_append, List.length_singleton, Nat.pow_succ]
      omega

theorem value_append_zeros (digits : List Char) (k : Nat) :
    value (digits ++ List.replicate k '0') = value digits * 10 ^ k := by
  rw [value_eq, Nat.ofDigitChars_append, Nat.ofDigitChars_replicate_zero, ← value_eq, Nat.mul_comm]

def digitsOf (width n : Nat) : List Char :=
  List.replicate (width - (Nat.toDigits 10 n).length) '0' ++ Nat.toDigits 10 n

theorem toList_padded (width n : Nat) : (padded width n).toList = digitsOf width n := by
  rw [padded, String.toList_ofList, digitsOf]

@[simp] theorem value_digitsOf (width n : Nat) : value (digitsOf width n) = n := by
  rw [value_eq, digitsOf, Nat.ofDigitChars_append, Nat.ofDigitChars_replicate_zero, Nat.mul_zero,
    Nat.ofDigitChars_toDigits (by decide) (by decide)]

theorem isDigit_of_mem_digitsOf {width n : Nat} {c : Char} (member : c ∈ digitsOf width n) :
    c.isDigit = true := by
  rcases List.mem_append.mp member with zero | digit
  · rw [(List.mem_replicate.mp zero).2]
    decide
  · exact Nat.isDigit_of_mem_toDigits (by decide) (by decide) digit

theorem isDigit_of_mem_padded {width n : Nat} {c : Char} (member : c ∈ (padded width n).toList) :
    c.isDigit = true := by
  rw [toList_padded] at member
  exact isDigit_of_mem_digitsOf member

theorem digitsOf_ne_nil (width n : Nat) : digitsOf width n ≠ [] := by
  intro empty
  have read := value_digitsOf width n
  rw [empty] at read
  -- Without digits the number would be zero, which has one.
  subst read
  exact absurd (List.append_eq_nil_iff.mp empty).2 (by decide)

theorem length_digitsOf {width n : Nat} (positive : 0 < width) (fits : n < 10 ^ width) :
    (digitsOf width n).length = width := by
  have short := (Nat.length_toDigits_le_iff (by decide : 1 < 10) positive).mpr fits
  rw [digitsOf, List.length_append, List.length_replicate, Nat.sub_add_cancel short]

end SealedContainer.Decimal
