import SealedContainer.Asn1.Pem
import SealedContainer.Proofs.Bytes.Base64

/-!
A text block is read back. Main statement: `decode?_block_append`. The lines that the digits are broken
into come together again, whatever their number, and the boundary lines are found at both ends.
-/

namespace SealedContainer.Pem

def IsInner (c : Char) : Prop := c ≠ '\n' ∧ c ≠ '\r'

theorem isInner_of_mem_encode {bytes : Bytes} {c : Char} (member : c ∈ Base64.encode bytes) :
    IsInner c := by
  have visible := (Base64.visible_encode bytes c member).1
  constructor <;> rintro rfl <;> revert visible <;> decide

theorem stripReversedLineEnd?_of_inner {c : Char} (inner : IsInner c) (rest : List Char) :
    stripReversedLineEnd? (c :: rest) = none := by
  unfold stripReversedLineEnd?
  split
  · next same => exact absurd (List.cons.inj same).1 inner.1
  · next same => exact absurd (List.cons.inj same).1 inner.1
  · next same => exact absurd (List.cons.inj same).1 inner.2
  · rfl

theorem stripReversedLineEnd?_newline {c : Char} (inner : IsInner c) (rest : List Char) :
    stripReversedLineEnd? ('\n' :: c :: rest) = some (c :: rest) := by
  unfold stripReversedLineEnd?
  split
  · next same => exact absurd (List.cons.inj (List.cons.inj same).2).1 inner.2
  · next same => rw [(List.cons.inj same).2]
  · next same => exact absurd (List.cons.inj same).1 (by decide)
  · next other _ => exact absurd rfl (other _)

structure Lines (digits block : List Char) : Prop where
  wrapped_eq : wrapped digits = block ++ ['\n']
  unwrapped_eq : unwrapped block = some digits
  last : ∃ front c, block = front ++ [c] ∧ IsInner c

theorem unwrapped_of_short {block front : List Char} {c : Char} (short : block.length ≤ lineWidth)
    (ends : block = front ++ [c]) (inner : IsInner c) : unwrapped block = some block := by
  have unended : stripReversedLineEnd? block.reverse = none := by
    rw [ends, List.reverse_append, List.reverse_singleton, List.singleton_append]
    exact stripReversedLineEnd?_of_inner inner _
  rw [unwrapped, List.drop_eq_nil_of_le short]
  simp only [unended, Option.getD_none, List.reverse_reverse]

theorem unwrapped_of_long {line block digits : List Char} (full : line.length = lineWidth)
    (rest : unwrapped block = some digits) :
    unwrapped (line ++ '\n' :: block) = some (line ++ digits) := by
  rw [unwrapped, ← full, List.drop_left]
  simp only [stripLineEnd?]
  have less : block.length < (line ++ '\n' :: block).length := by
    rw [List.length_append, List.length_cons]
    omega
  rw [dif_pos less, rest, Option.map_some, List.take_left]

theorem wrapped_of_ne_nil {digits : List Char} (nonempty : digits ≠ []) :
    wrapped digits = digits.take lineWidth ++ '\n' :: wrapped (digits.drop lineWidth) := by
  cases digits with
  | nil => exact absurd rfl nonempty
  | cons c rest =>
      rw [wrapped]
      rfl

theorem Lines.of_short {digits : List Char} (nonempty : digits ≠ [])
    (inner : ∀ c ∈ digits, IsInner c) (short : digits.length ≤ lineWidth) :
    Lines digits digits := by
  have ends := (List.dropLast_concat_getLast nonempty).symm
  have last := inner _ (List.getLast_mem nonempty)
  refine ⟨?_, unwrapped_of_short short ends last, _, _, ends, last⟩
  rw [wrapped_of_ne_nil nonempty, List.take_of_length_le short, List.drop_eq_nil_of_le short, wrapped]

theorem Lines.of_long {digits block : List Char} (long : lineWidth < digits.length)
    (rest : Lines (digits.drop lineWidth) block) :
    Lines digits (digits.take lineWidth ++ '\n' :: block) := by
  have nonempty : digits ≠ [] := List.ne_nil_of_length_pos (Nat.zero_lt_of_lt long)
  obtain ⟨front, c, ends, last⟩ := rest.last
  refine ⟨?_, ?_, digits.take lineWidth ++ '\n' :: front, c, ?_, last⟩
  · rw [wrapped_of_ne_nil nonempty, rest.wrapped_eq, List.append_assoc, List.cons_append]
  · rw [unwrapped_of_long (List.length_take_of_le (Nat.le_of_lt long)) rest.unwrapped_eq,
      List.take_append_drop]
  · rw [ends, List.append_assoc, List.cons_append]

theorem exists_lines {digits : List Char} (nonempty : digits ≠ [])
    (inner : ∀ c ∈ digits, IsInner c) : ∃ block, Lines digits block := by
  -- By induction on the number of digits, a line at a time.
  induction size : digits.length using Nat.strongRecOn generalizing digits with
  | _ n ih =>
      by_cases short : digits.length ≤ lineWidth
      · exact ⟨digits, .of_short nonempty inner short⟩
      · have long : lineWidth < digits.length := Nat.lt_of_not_le short
        have fewer : (digits.drop lineWidth).length < n := by
          rw [List.length_drop, ← size]
          exact Nat.sub_lt (Nat.zero_lt_of_lt long) (by decide)
        have more : digits.drop lineWidth ≠ [] := by
          rw [Ne, List.drop_eq_nil_iff]
          exact short
        obtain ⟨block, rest⟩ := ih _ fewer more (fun c member => inner c (List.mem_of_mem_drop member))
          rfl
        exact ⟨_, .of_long long rest⟩

theorem stripFront?_append (front rest : List Char) : stripFront? front (front ++ rest) = some rest := by
  rw [stripFront?, if_pos (List.isPrefixOf_iff_prefix.mpr (List.prefix_append _ _)), List.drop_left]

def IsLabel (label : List Char) : Prop :=
  ∀ rest, label? false (label ++ '-' :: rest) = some (label, '-' :: rest)

def block (label : String) (bytes : Bytes) : List Char :=
  beginMark ++ label.toList ++ dashes ++ '\n' :: wrapped (Base64.encode bytes) ++
    endMark ++ label.toList ++ dashes

theorem toList_encode (label : String) (bytes : Bytes) :
    (encode label bytes).toList = block label bytes ++ ['\n'] := by
  rw [encode, String.toList_ofList, block]

def IsEnding (ending : List Char) : Prop :=
  ∀ rest, (stripReversedLineEnd? (ending.reverse ++ '-' :: rest)).getD
    (ending.reverse ++ '-' :: rest) = '-' :: rest

theorem decode?_block_append {label : String} {bytes : Bytes} {ending : List Char}
    (named : IsLabel label.toList) (nonempty : bytes ≠ []) (ended : IsEnding ending) :
    decode? (block label bytes ++ ending) = some (label, bytes) := by
  have digits : Base64.encode bytes ≠ [] := by
    intro empty
    have read := Base64.decode_encode bytes
    rw [empty] at read
    exact nonempty (Option.some.inj read).symm
  obtain ⟨lines, wrapped⟩ := exists_lines digits fun c => isInner_of_mem_encode
  obtain ⟨front, c, ends, last⟩ := wrapped.last
  have start : beginMark.isPrefixOf (block label bytes ++ ending) = true := by
    apply List.isPrefixOf_iff_prefix.mpr
    simp only [block, List.append_assoc]
    exact List.prefix_append _ _
  have found : label? false ((block label bytes ++ ending).drop beginMark.length) =
      some (label.toList,
        dashes ++ '\n' :: (lines ++ '\n' :: (endMark ++ (label.toList ++ (dashes ++ ending))))) := by
    simp only [block, wrapped.wrapped_eq, List.append_assoc, List.drop_left, List.cons_append,
      List.nil_append]
    exact named _
  have reversed : (lines ++ '\n' :: (endMark ++ (label.toList ++ (dashes ++ ending)))).reverse =
      ending.reverse ++
        (dashes ++ (label.toList.reverse ++ (endMark.reverse ++ '\n' :: lines.reverse))) := by
    simp only [List.reverse_append, List.reverse_cons, List.append_assoc,
      List.singleton_append]
    rfl
  have turned : lines.reverse = c :: front.reverse := by simp [ends]
  have stripped := ended ("----".toList ++
    (label.toList.reverse ++ (endMark.reverse ++ '\n' :: lines.reverse)))
  change (stripReversedLineEnd? (ending.reverse ++ (dashes ++ _))).getD
    (ending.reverse ++ (dashes ++ _)) = dashes ++ _ at stripped
  have opened : stripReversedLineEnd? ('\n' :: lines.reverse) = some lines.reverse := by
    rw [turned, stripReversedLineEnd?_newline last]
  have filled : lines.reverse ≠ [] := by simp [turned]
  simp only [decode?, start, if_true, found, Option.bind_eq_bind, Option.bind_some,
    stripFront?_append, stripLineEnd?, reversed, stripped, opened, if_neg filled,
    List.reverse_reverse, wrapped.unwrapped_eq, Base64.decode_encode, String.ofList_toList]
  rfl

section Named

variable {label : String} {bytes : Bytes} (named : IsLabel label.toList) (nonempty : bytes ≠ [])

include named nonempty

theorem decode?_block : decode? (block label bytes) = some (label, bytes) := by
  have read : decode? (block label bytes ++ []) = some (label, bytes) :=
    decode?_block_append named nonempty fun _ => rfl
  rwa [List.append_nil] at read

theorem decode?_encode : decode? (encode label bytes).toList = some (label, bytes) := by
  rw [toList_encode]
  exact decode?_block_append named nonempty fun _ => rfl

end Named

end SealedContainer.Pem
