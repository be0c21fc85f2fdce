import SealedContainer.Header.Layout
import SealedContainer.Proofs.Header.Place

/-!
Tables at a place, with the places of their fields. A directory may stand right in front of its
table or anywhere behind it, where an earlier table left it.
-/

namespace SealedContainer.Header

open Layout

theorem At.piece {α : Type} {h : Bytes} {place : Nat} {f : α → Bytes} {l : List α} (count : Nat)
    (at_ : At h place (l.flatMap f)) (size : ∀ a, (f a).length = count) {i : Nat} {a : α}
    (there : l[i]? = some a) : At h (place - count * i) (f a) := by
  induction l generalizing place i with
  | nil => simp at there
  | cons b l ih =>
      rw [List.flatMap_cons] at at_
      cases i with
      | zero =>
          simp only [List.getElem?_cons_zero, Option.some.injEq] at there
          subst there
          simpa using at_.left
      | succ i =>
          have later := ih at_.right there
          rw [size] at later
          rwa [Nat.mul_succ, Nat.add_comm, ← Nat.sub_sub]

theorem length_directory (places : List (Nat × Nat)) (start size : Nat) :
    (directory places start size).length = 4 + 2 * ((width places - 4) / 2) := by
  simp only [directory, List.length_append, Bytes.length_ofNatLE, List.length_flatMap,
    List.map_const', List.length_range, List.sum_replicate_nat]
  omega

/-- A slot is even, behind both sizes, and one of the first that a directory has. -/
def Slotted (slot : Nat) : Prop := slot % 2 = 0 ∧ 4 ≤ slot ∧ slot ≤ 10

instance (slot : Nat) : Decidable (Slotted slot) := by unfold Slotted; infer_instance

private theorem width_from (places : List (Nat × Nat)) (first : Nat) (bound : first ≤ 12)
    (even : first % 2 = 0) (slotted : ∀ f ∈ places, Slotted f.1) :
    let last := places.foldl (fun n field => max n (field.1 + 2)) first
    first ≤ last ∧ last ≤ 12 ∧ last % 2 = 0 ∧ ∀ f ∈ places, f.1 + 2 ≤ last := by
  induction places generalizing first with
  | nil => exact ⟨Nat.le_refl _, bound, even, by simp⟩
  | cons f places ih =>
      have slot := slotted f (List.mem_cons_self ..)
      unfold Slotted at slot
      obtain ⟨above, below, whole, reached⟩ := ih (max first (f.1 + 2)) (by omega) (by omega)
        fun g member => slotted g (List.mem_cons_of_mem _ member)
      simp only [List.foldl_cons]
      refine ⟨by omega, below, whole, ?_⟩
      intro g member
      rcases List.mem_cons.mp member with rfl | member
      · omega
      · exact reached g member

theorem width_spec (places : List (Nat × Nat)) (slotted : ∀ f ∈ places, Slotted f.1) :
    4 ≤ width places ∧ width places ≤ 12 ∧ width places % 2 = 0 ∧
      ∀ f ∈ places, f.1 + 2 ≤ width places :=
  width_from places 4 (by omega) (by omega) slotted

theorem width_le {places : List (Nat × Nat)} {reach : Nat} (four : 4 ≤ reach)
    (within : ∀ f ∈ places, f.1 + 2 ≤ reach) : width places ≤ reach := by
  have fold : ∀ (l : List (Nat × Nat)) (first : Nat), first ≤ reach →
      (∀ f ∈ l, f.1 + 2 ≤ reach) → l.foldl (fun n field => max n (field.1 + 2)) first ≤ reach := by
    intro l
    induction l with
    | nil => exact fun first low _ => low
    | cons f l ih =>
        intro first low each
        have here := each f (List.mem_cons_self ..)
        exact ih _ (Nat.max_le.mpr ⟨low, here⟩) fun g member =>
          each g (List.mem_cons_of_mem _ member)
  exact fold places 4 four within

/-- A table at `start` whose directory is at `dir` and whose fields are at `places`. -/
structure TableAt (h : Bytes) (start dir : Nat) (places : List (Nat × Nat)) : Prop where
  stored : ∃ size, At h dir (directory places start size)
  back : At h start (Bytes.ofNatLE 4 (2 ^ 32 + dir - start))
  aligned : start % 4 = 0
  even : dir % 2 = 0
  near : start < dir + 2 ^ 31 ∧ dir < start + 2 ^ 31
  slotted : ∀ f ∈ places, Slotted f.1
  inside : ∀ f ∈ places, f.2 < start ∧ start < f.2 + 2 ^ 16

namespace TableAt

variable {h : Bytes} {start dir : Nat} {places : List (Nat × Nat)}

theorem mono {h' : Bytes} (table : TableAt h start dir places) (grown : h <:+ h') :
    TableAt h' start dir places := by
  rcases table.stored with ⟨size, stored⟩
  exact ⟨⟨size, stored.mono grown⟩, table.back.mono grown, table.aligned, table.even, table.near,
    table.slotted, table.inside⟩

theorem width_le (table : TableAt h start dir places) : width places ≤ dir ∧ dir ≤ h.length := by
  rcases table.stored with ⟨size, stored⟩
  rcases width_spec places table.slotted with ⟨low, _, whole, _⟩
  have reach := stored.length_le
  rw [length_directory] at reach
  exact ⟨by omega, stored.place_le⟩

/-- The distance back, modulo its width where the directory is behind the table. -/
theorem back_eq (table : TableAt h start dir places) :
    numberAt? h 4 (h.length - start) = some ((2 ^ 32 + dir - start) % 2 ^ 32) := by
  apply numberAt?_of_at
  · rw [show (2 : Nat) ^ 32 = 256 ^ 4 by rfl, Bytes.ofNatLE_mod]
    exact table.back
  · exact Nat.mod_lt _ (by decide)

theorem directoryAt?_eq (table : TableAt h start dir places) :
    directoryAt? h (h.length - start) = some (h.length - dir) := by
  have reach := table.width_le.2
  have inside := table.back.place_le
  rcases table.near with ⟨behind, before⟩
  have number : u32At? h (h.length - start) = some ((2 ^ 32 + dir - start) % 2 ^ 32) :=
    table.back_eq
  have back : (Int32.ofNat ((2 ^ 32 + dir - start) % 2 ^ 32)).toInt = (dir : Int) - start := by
    rw [Int32.toInt_ofNat', Int.bmod_def]
    simp only [Int32.size]
    omega
  simp only [directoryAt?, number, Option.bind_eq_bind, Option.bind_some, back]
  have forward : ¬ (((h.length - start : Nat) : Int) - ((dir : Int) - start) < 0) := by omega
  rw [if_neg forward]
  congr 1
  omega

theorem width_eq (table : TableAt h start dir places) :
    numberAt? h 2 (h.length - dir) = some (width places) := by
  rcases table.stored with ⟨size, stored⟩
  have small := (width_spec places table.slotted).2.1
  rw [directory, List.append_assoc] at stored
  exact numberAt?_of_at stored.left (by omega)

theorem distance_eq (table : TableAt h start dir places) {slot : Nat} (slotted : Slotted slot)
    (reached : slot < width places) :
    numberAt? h 2 (h.length - dir + slot) = some (distance places start slot) := by
  rcases slotted with ⟨even, low, _⟩
  rcases table.stored with ⟨size, stored⟩
  rcases width_spec places table.slotted with ⟨_, small, whole, _⟩
  have fits : distance places start slot < 256 ^ 2 := by
    unfold distance
    split
    · rename_i place found
      rcases List.lookup_eq_some_iff.mp found with ⟨front, back, split, _⟩
      have near := (table.inside (slot, place) (by rw [split]; simp)).2
      omega
    · decide
  have index : (List.range ((width places - 4) / 2))[(slot - 4) / 2]? = some ((slot - 4) / 2) := by
    rw [List.getElem?_range (by omega)]
  have position : h.length - (dir - 2 - 2 - 2 * ((slot - 4) / 2)) = h.length - dir + slot := by
    have reach := table.width_le
    omega
  rw [directory, List.append_assoc] at stored
  have piece := stored.right.right.piece 2 (by simp) index
  rw [Bytes.length_ofNatLE, Bytes.length_ofNatLE, show 4 + 2 * ((slot - 4) / 2) = slot by omega]
    at piece
  rw [← position]
  exact numberAt?_of_at piece fits

theorem lookup_inside (table : TableAt h start dir places) {slot place : Nat}
    (found : places.lookup slot = some place) :
    slot + 2 ≤ width places ∧ distance places start slot = start - place ∧ place < start ∧
      h.length - start + (start - place) = h.length - place := by
  rcases List.lookup_eq_some_iff.mp found with ⟨front, back, split, _⟩
  have member : (slot, place) ∈ places := by rw [split]; simp
  have near := (table.inside _ member).1
  have inside := table.back.place_le
  refine ⟨(width_spec places table.slotted).2.2.2 _ member, ?_, near, by omega⟩
  rw [distance, found]

theorem width_le_of_missing (table : TableAt h start dir places) {slot : Nat}
    (slotted : Slotted slot) (narrow : width places ≤ slot + 2) (missing : places.lookup slot = none) :
    width places ≤ slot := by
  rcases slotted with ⟨even, low, _⟩
  refine Header.width_le low ?_
  intro f member
  have reached := (width_spec places table.slotted).2.2.2 f member
  have own := table.slotted f member
  have other : slot ≠ f.1 := by
    simpa using List.lookup_eq_none_iff.mp missing f member
  unfold Slotted at own
  omega

theorem fieldAt?_eq (table : TableAt h start dir places) {slot : Nat} (slotted : Slotted slot) :
    fieldAt? h (h.length - start) slot =
      some ((places.lookup slot).map fun place => h.length - place) := by
  have size : u16At? h (h.length - dir) = some (width places) := table.width_eq
  rcases width_spec places table.slotted with ⟨_, _, whole, _⟩
  simp only [fieldAt?, table.directoryAt?_eq, size, Option.bind_eq_bind, Option.bind_some]
  cases found : places.lookup slot with
  | some place =>
      rcases table.lookup_inside found with ⟨reached, far, near, position⟩
      have number : u16At? h (h.length - dir + slot) = some (distance places start slot) :=
        table.distance_eq slotted (by omega)
      rw [if_pos reached, number, far]
      simp only [Option.bind_some, Option.map_some, Option.pure_def]
      rw [if_neg (by omega), position]
  | none =>
      by_cases reached : slot + 2 ≤ width places
      · have number : u16At? h (h.length - dir + slot) = some (distance places start slot) :=
          table.distance_eq slotted (by omega)
        rw [if_pos reached, number, distance, found]
        rfl
      · rw [if_neg reached]
        rfl

end TableAt

end SealedContainer.Header
