import SealedContainer.Http
import SealedContainer.Proofs.Bytes
import SealedContainer.Proofs.Capsule.Keeping
import SealedContainer.Proofs.Instant.Text

/-!
Texts that may stand as the value of a header. Main statements: ids and instants are written as
such texts (`plain_ofBytes`, `plain_text`), whatever the bytes of an id are, and whatever the year,
the fraction and the second of an instant.
-/

namespace SealedContainer

namespace Http

def isPlain (c : Char) : Bool := 32 ≤ c.toNat && c.toNat < 127

def Plain (s : String) : Prop := ∀ c ∈ s.toList, isPlain c = true

instance (s : String) : Decidable (Plain s) := List.decidableBAll _ _

@[simp] theorem plain_append {s t : String} : Plain (s ++ t) ↔ Plain s ∧ Plain t := by
  simp only [Plain, String.toList_append, List.forall_mem_append]

theorem isFieldByte_of_isPlain {c : Char} (plain : isPlain c = true) :
    ∀ b ∈ String.utf8EncodeChar c, isFieldByte b = true := by
  simp only [isPlain, Bool.and_eq_true, decide_eq_true_eq] at plain
  obtain ⟨b, single, value⟩ :=
    Bytes.utf8EncodeChar_of_ascii (Nat.lt_trans plain.2 (show 127 < 128 by decide))
  have visible : 32 ≤ b := by
    rw [UInt8.le_iff_toNat_le, value]
    exact plain.1
  have printed : b ≠ 127 := by
    intro same
    rw [same] at value
    exact absurd plain.2 (by rw [← value]; decide)
  rw [single, List.forall_mem_singleton]
  simp [isFieldByte, visible, printed]

theorem isFieldText_of_plain {s : String} (plain : Plain s) : isFieldText s = true := by
  rw [isFieldText, Bytes.ofString_eq_flatMap, List.all_eq_true]
  intro b member
  obtain ⟨c, inside, byte⟩ := List.mem_flatMap.mp member
  exact isFieldByte_of_isPlain (plain c inside) b byte

theorem isPlain_of_isDigit {c : Char} (digit : c.isDigit = true) : isPlain c = true := by
  have bounds : 48 ≤ c.toNat ∧ c.toNat ≤ 57 := by
    simpa [Char.isDigit, UInt32.le_iff_toNat_le] using digit
  simp only [isPlain, Bool.and_eq_true, decide_eq_true_eq]
  omega

end Http

namespace TransactionId

open Http

theorem isPlain_of_mem_digits : ∀ c ∈ digits, isPlain c = true :=
  List.all_eq_true.mp (by decide)

theorem plain_ofBytes (entropy : Bytes) : Plain (ofBytes entropy) := by
  rw [ofBytes, plain_append]
  constructor
  · decide
  · intro c member
    rw [Hex.encode, String.toList_ofList] at member
    exact isPlain_of_mem_digits c (mem_digits_of_mem member)

end TransactionId

theorem Instant.plain_text (t : Instant) : Http.Plain t.text :=
  Http.plain_append.mpr
    ⟨(ClockTime.ofInstant t 0).forall_mem_text (fun _ => Http.isPlain_of_isDigit)
      (List.all_eq_true.mp rfl), by decide⟩

end SealedContainer
