import SealedContainer.Header.Verify
import SealedContainer.Proofs.Header.Table

/-!
Checks that succeed, with what they count. A check takes a fixed number of bytes and tables and
refuses only where these go beyond the limits, so the cost of a sequence is the sum of the costs of
its steps.
-/

namespace SealedContainer.Header.Verify

namespace Visited

instance : Add Visited := ⟨fun a b => ⟨a.size + b.size, a.tables + b.tables⟩⟩

instance : Zero Visited := ⟨⟨0, 0⟩⟩

@[simp] theorem size_add (a b : Visited) : (a + b).size = a.size + b.size := rfl

@[simp] theorem tables_add (a b : Visited) : (a + b).tables = a.tables + b.tables := rfl

@[simp] theorem size_zero : (0 : Visited).size = 0 := rfl

@[simp] theorem tables_zero : (0 : Visited).tables = 0 := rfl

protected theorem ext {a b : Visited} (size : a.size = b.size) (tables : a.tables = b.tables) :
    a = b := by
  cases a
  cases b
  cases size
  cases tables
  rfl

protected theorem add_assoc (a b c : Visited) : a + b + c = a + (b + c) :=
  Visited.ext (Nat.add_assoc ..) (Nat.add_assoc ..)

@[simp] protected theorem add_zero (a : Visited) : a + 0 = a := rfl

@[simp] protected theorem zero_add (a : Visited) : 0 + a = a :=
  Visited.ext (Nat.zero_add _) (Nat.zero_add _)

def Fits (v : Visited) : Prop := v.size ≤ maxSize ∧ v.tables ≤ maxTables

instance (v : Visited) : Decidable v.Fits := by unfold Fits; infer_instance

theorem Fits.left {a b : Visited} (fits : (a + b).Fits) : a.Fits :=
  ⟨Nat.le_trans (Nat.le_add_right ..) fits.1, Nat.le_trans (Nat.le_add_right ..) fits.2⟩

end Visited

/-- The check gives `a` and counts `cost`, and refuses only what goes beyond the limits. -/
def Takes {α : Type} (check : Check α) (a : α) (cost : Visited) : Prop :=
  ∀ v : Visited, v.Fits → check.run v = if (v + cost).Fits then some (a, v + cost) else none

variable {α β : Type} {h : Bytes}

theorem takes_pure (a : α) : Takes (pure a) a 0 := by
  intro v fits
  simp [fits]

theorem Takes.bind {check : Check α} {next : α → Check β} {a : α} {b : β} {cost more : Visited}
    (first : Takes check a cost) (second : Takes (next a) b more) :
    Takes (check >>= next) b (cost + more) := by
  intro v fits
  rw [StateT.run_bind, first v fits, ← Visited.add_assoc]
  by_cases room : (v + cost).Fits
  · rw [if_pos room]
    exact second (v + cost) room
  · rw [if_neg room, if_neg fun whole => room whole.left]
    rfl

theorem Takes.congr {check : Check α} {a : α} {cost more : Visited} (taken : Takes check a cost)
    (size : cost.size = more.size) (tables : cost.tables = more.tables) : Takes check a more := by
  rwa [← Visited.ext size tables]

theorem takes_require {p : Prop} [Decidable p] (holds : p) : Takes (require p) () 0 := by
  rw [require, if_pos holds]
  exact takes_pure ()

theorem takes_liftM {x : Option α} {a : α} (there : x = some a) :
    Takes (liftM x : Check α) a 0 := by
  intro v fits
  subst there
  simp only [Visited.add_zero, if_pos fits]
  rfl

theorem takes_countBytes (size : Nat) : Takes (countBytes size) () ⟨size, 0⟩ := by
  intro v fits
  have limit : (v + ⟨size, 0⟩).Fits ↔ v.size + size ≤ maxSize :=
    ⟨fun whole => whole.1, fun room => ⟨room, fits.2⟩⟩
  change (require (v.size + size ≤ maxSize)).run (v + ⟨size, 0⟩) = _
  by_cases room : v.size + size ≤ maxSize
  · rw [require, if_pos room, if_pos (limit.mpr room)]
    rfl
  · rw [require, if_neg room, if_neg fun whole => room (limit.mp whole)]
    rfl

theorem takes_countTable : Takes countTable () ⟨0, 1⟩ := by
  intro v fits
  have limit : (v + ⟨0, 1⟩).Fits ↔ v.tables + 1 ≤ maxTables :=
    ⟨fun whole => whole.2, fun room => ⟨fits.1, room⟩⟩
  change (require (v.tables + 1 ≤ maxTables)).run (v + ⟨0, 1⟩) = _
  by_cases room : v.tables + 1 ≤ maxTables
  · rw [require, if_pos room, if_pos (limit.mpr room)]
    rfl
  · rw [require, if_neg room, if_neg fun whole => room (limit.mp whole)]
    rfl

theorem takes_range {pos size : Nat} (inside : pos + size ≤ h.length) :
    Takes (range h pos size) () ⟨size, 0⟩ := by
  exact Takes.congr (Takes.bind (takes_require inside) (takes_countBytes size)) (by simp) rfl

theorem inside_of_numberAt? {width pos n : Nat} (read : numberAt? h width pos = some n)
    (positive : 0 < width) : pos + width ≤ h.length := by
  unfold numberAt? at read
  simp only at read
  split at read
  · rename_i full
    rw [List.length_take, List.length_drop] at full
    omega
  · cases read

theorem takes_number {width pos n : Nat} (positive : 0 < width) (aligned : pos % width = 0)
    (read : numberAt? h width pos = some n) : Takes (number h width pos) n ⟨width, 0⟩ := by
  exact Takes.congr (Takes.bind (takes_require aligned)
    (Takes.bind (takes_range (inside_of_numberAt? read positive)) (takes_liftM read)))
    (by simp) rfl

/-! Whatever stands at a place passes, in a buffer whose size is a whole number of words. -/

variable {place : Nat}

theorem takes_byte {value : UInt8} (at_ : At h place [value]) :
    Takes (byte h (h.length - place)) () ⟨1, 0⟩ := by
  have read : numberAt? h 1 (h.length - place) = some value.toNat := by
    have field := at_.take_drop
    simp only [List.length_singleton] at field
    simp [numberAt?, field, Bytes.toNatLE]
  exact Takes.congr (Takes.bind (takes_number Nat.one_pos (Nat.mod_one _) read) (takes_pure ()))
    rfl rfl

variable (whole : h.length % 4 = 0)

include whole

theorem takes_ref {target : Nat} (at_ : RefAt h place target) :
    Takes (number h 4 (h.length - place)) (place - target) ⟨4, 0⟩ ∧
      h.length - place + (place - target) = h.length - target := by
  have inside := at_.stored.place_le
  have aligned := at_.aligned
  have forward := at_.forward
  exact ⟨takes_number (by omega) (by omega) (numberAt?_of_at at_.stored at_.fits), by omega⟩

theorem takes_follow {target : Nat} {check : Nat → Check Unit} {cost : Visited}
    (at_ : RefAt h place target) (taken : Takes (check (h.length - target)) () cost) :
    Takes (follow h check (h.length - place)) () (⟨4, 0⟩ + cost) := by
  rcases takes_ref whole at_ with ⟨number, landing⟩
  refine Takes.bind number ?_
  rw [landing]
  exact taken

theorem takes_elements {width count : Nat}
    (counted : numberAt? h 4 (h.length - place) = some count) (aligned : place % 4 = 0)
    (inside : place ≤ h.length) (wide : 4 % width = 0)
    (room : h.length - place + 4 + count * width ≤ h.length) :
    Takes (elements h width (h.length - place)) (h.length - place + 4, count)
      ⟨4 + count * width, 0⟩ := by
  have multiple : (h.length - place + 4) % width = 0 := by
    have four : (h.length - place + 4) % 4 = 0 := by omega
    exact Nat.mod_eq_zero_of_dvd
      (Nat.dvd_trans (Nat.dvd_of_mod_eq_zero wide) (Nat.dvd_of_mod_eq_zero four))
  exact Takes.congr (Takes.bind (takes_number (by omega) (by omega) counted)
    (Takes.bind (takes_require multiple) (Takes.bind (takes_range room) (takes_pure _))))
    (by simp) rfl

theorem takes_bytes {content : Bytes} (at_ : BytesAt h place content) :
    Takes (bytes h (h.length - place)) () ⟨4 + content.length, 0⟩ := by
  have inside := at_.stored.place_le
  have full := at_.stored.length_le
  rw [List.length_append, Bytes.length_ofNatLE] at full
  exact Takes.congr (Takes.bind (takes_elements whole at_.count at_.aligned
    inside rfl (by omega)) (takes_pure ())) (by simp) rfl

theorem takes_text {text : String} (at_ : TextAt h place text) :
    Takes (Verify.text h (h.length - place)) () ⟨4 + (Bytes.ofString text).length, 0⟩ := by
  have inside := at_.bytes.stored.place_le
  have full := at_.bytes.stored.length_le
  rw [List.length_append, Bytes.length_ofNatLE] at full
  have formed : (Bytes.toString? ((h.drop (h.length - place + 4)).take
      (Bytes.ofString text).length)).isSome := by
    rw [at_.bytes.content]
    simp
  exact Takes.congr (Takes.bind (takes_elements whole at_.bytes.count
    at_.aligned inside rfl (by omega)) (Takes.bind (takes_require formed)
      (takes_require at_.terminated))) (by simp) rfl

section Tables

variable {start dir : Nat} {places : List (Nat × Nat)}

def Table.of (h : Bytes) (start dir : Nat) (places : List (Nat × Nat)) : Table :=
  ⟨h.length - start, h.length - dir, Layout.width places⟩

theorem takes_table (at_ : TableAt h start dir places) :
    Takes (table h (h.length - start)) (Table.of h start dir places)
      ⟨4 + 2 + Layout.width places, 1⟩ := by
  rcases at_.width_le with ⟨reach, inside⟩
  rcases width_spec places at_.slotted with ⟨low, _, even, _⟩
  have aligned := at_.aligned
  have dirEven := at_.even
  have within := at_.back.place_le
  exact Takes.congr (Takes.bind (takes_number (by omega) (by omega) at_.back_eq)
    (Takes.bind (takes_liftM at_.directoryAt?_eq) (Takes.bind (takes_require (by omega))
      (Takes.bind (takes_number (by omega) (by omega) at_.width_eq)
        (Takes.bind (takes_require (by omega)) (Takes.bind (takes_range (by omega))
          (Takes.bind takes_countTable (takes_pure _)))))))) (by simp; omega) (by simp)

def slotCost (places : List (Nat × Nat)) (slot : Nat) : Visited :=
  ⟨if slot < Layout.width places then 2 else 0, 0⟩

theorem takes_field (at_ : TableAt h start dir places) {slot : Nat} (slotted : Slotted slot) :
    Takes ((Table.of h start dir places).field h slot)
      ((places.lookup slot).map fun place => h.length - place) (slotCost places slot) := by
  rcases at_.width_le with ⟨reach, inside⟩
  rcases id slotted with ⟨slotEven, _⟩
  have even := at_.even
  unfold Table.field
  by_cases reached : slot < (Table.of h start dir places).size
  · have within : slot < Layout.width places := reached
    have position : (Table.of h start dir places).directory + slot = h.length - dir + slot := rfl
    have answer : Takes (pure (if Layout.distance places start slot = 0 then none
        else some ((Table.of h start dir places).pos + Layout.distance places start slot)))
        ((places.lookup slot).map fun place => h.length - place) 0 := by
      cases found : places.lookup slot with
      | some place =>
          rcases at_.lookup_inside found with ⟨_, far, near, landing⟩
          rw [far, if_neg (by omega)]
          change Takes (pure (some (h.length - start + (start - place)))) _ 0
          rw [landing]
          exact takes_pure _
      | none =>
          rw [Layout.distance, found]
          exact takes_pure _
    rw [if_pos reached, slotCost, if_pos within, position]
    exact Takes.congr (Takes.bind (takes_number (by omega) (by omega)
      (at_.distance_eq slotted within)) answer) rfl rfl
  · have beyond : ¬ slot < Layout.width places := reached
    rw [if_neg reached, slotCost, if_neg beyond]
    cases found : places.lookup slot with
    | some place =>
        have known := (at_.lookup_inside found).1
        omega
    | none => exact takes_pure _

theorem takes_visit_some (at_ : TableAt h start dir places) {slot place : Nat} {required : Bool}
    {check : Nat → Check Unit} {cost : Visited} (slotted : Slotted slot)
    (found : places.lookup slot = some place) (taken : Takes (check (h.length - place)) () cost) :
    Takes ((Table.of h start dir places).visit h slot required check) ()
      (slotCost places slot + cost) := by
  have field := takes_field whole at_ slotted
  rw [found] at field
  exact Takes.bind field taken

theorem takes_visit_none (at_ : TableAt h start dir places) {slot : Nat}
    {check : Nat → Check Unit} (slotted : Slotted slot) (missing : places.lookup slot = none) :
    Takes ((Table.of h start dir places).visit h slot false check) () (slotCost places slot) := by
  have field := takes_field whole at_ slotted
  rw [missing] at field
  exact Takes.congr (Takes.bind field (takes_require rfl)) rfl rfl

end Tables

end SealedContainer.Header.Verify
