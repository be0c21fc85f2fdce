import SealedContainer.Proofs.Header.Written

/-!
How long a header becomes when it is written. The check counts the directory of every table, though
equal ones are written only once, and this makes up for all that is written between the parts: no
header is longer than what is counted for it, with the details that the check passes over.
-/

namespace SealedContainer.Header

/-- The bytes of details that are not counted, as their type is not known. -/
def Record.unread (zeros : Bool) (r : Record) : Nat :=
  if r.seen.details.isSome then 0 else (r.details.map fun d => 4 + d.visited zeros).getD 0

def unread (zeros : Bool) (header : Header) : Nat :=
  ((header.records.getD []).map (Record.unread zeros)).sum

theorem Record.visited_add_unread (zeros : Bool) (r : Record) :
    r.visited zeros + r.unread zeros =
      30 + 5 * byteCount zeros r.keyMethod.toUInt8 + (r.wrappedKey.getD []).length +
        (if r.details.isSome then 1 else 0) +
          (r.details.map fun d => 4 + d.visited zeros).getD 0 := by
  unfold visited unread seen
  by_cases known : r.detailsType = 1 ∨ r.detailsType = 2
  · cases r.details <;> simp [known]
  · cases r.details <;> simp [known]

namespace Layout

variable {b : Layout}

theorem size_align_eq (b : Layout) (more : Nat) :
    (b.align 4 more).size = b.size + (4 - (b.size + more) % 4) % 4 := by
  rw [align, size_put, List.length_replicate, Nat.add_comm]

theorem size_putRef (b : Layout) (target : Nat) :
    (b.putRef target).size = b.size + (4 - (b.size + 4) % 4) % 4 + 4 := by
  rw [putRef, size_put, Bytes.length_ofNatLE, size_align_eq, Nat.add_comm]

theorem size_putBytes (b : Layout) (content : Bytes) :
    ∃ c place, b.putBytes content = (c, place) ∧ c.storesZeros = b.storesZeros ∧ c.size % 4 = 0 ∧
      c.size ≤ b.size + content.length + 7 := by
  obtain ⟨extended, _, whole, _⟩ := putWord_put_align b content content.length
  have within := extended.size_le.2
  rw [← Nat.add_assoc] at within
  exact ⟨_, _, rfl, rfl, whole, within⟩

theorem size_putText (b : Layout) (text : String) :
    ∃ c place, b.putText text = (c, place) ∧ c.storesZeros = b.storesZeros ∧ c.size % 4 = 0 ∧
      c.size ≤ b.size + (Bytes.ofString text).length + 8 := by
  have room := putWord_put_align b (Bytes.ofString text ++ [0]) (Bytes.ofString text).length
  rw [List.length_append, ← put_put] at room
  obtain ⟨extended, _, whole, _⟩ := room
  exact ⟨_, _, rfl, rfl, whole, extended.size_le.2⟩

def Field.count (zeros : Bool) : Field → Nat
  | .byte value => byteCount zeros value
  | .ref _ => 1

def written (zeros : Bool) (fields : List (Nat × Field)) : List (Nat × Field) :=
  fields.filter fun f => f.2.count zeros = 1

theorem mem_written {zeros : Bool} {fields : List (Nat × Field)} {f : Nat × Field} :
    f ∈ written zeros fields ↔ f ∈ fields ∧ f.2.count zeros = 1 := by
  simp [written]

theorem length_written (zeros : Bool) (fields : List (Nat × Field)) :
    (written zeros fields).length = (fields.map fun f => f.2.count zeros).sum := by
  have zero_or_one : ∀ field : Field, field.count zeros = 0 ∨ field.count zeros = 1 := by
    intro field
    cases field with
    | byte value =>
        have few := byteCount_le zeros value
        simp only [Field.count]
        omega
    | ref target => exact Or.inr rfl
  induction fields with
  | nil => rfl
  | cons f fields ih =>
      rw [List.map_cons, List.sum_cons, ← ih]
      rcases zero_or_one f.2 with zero | one
      · simp [written, zero]
      · simp [written, one, Nat.add_comm]

theorem putField_cases (b : Layout) (places : List (Nat × Nat)) (f : Nat × Field) :
    (f.2.count b.storesZeros ≠ 1 ∧ putField (b, places) f = (b, places)) ∨
      (f.2.count b.storesZeros = 1 ∧
        ∃ c place, putField (b, places) f = (c, (f.1, place) :: places) ∧
          c.storesZeros = b.storesZeros ∧
            ∀ top, top % 4 = 0 → b.size ≤ top → c.size ≤ top + 4) := by
  rcases f with ⟨slot, field⟩
  cases field with
  | byte value =>
      by_cases left : value = 0 ∧ b.storesZeros = false
      · refine Or.inl ⟨by simp [Field.count, byteCount, left], by simp [putField, left]⟩
      · refine Or.inr ⟨by simp only [Field.count, byteCount, if_neg left], b.put [value],
          (b.put [value]).size, ?_, rfl, ?_⟩
        · simp only [putField, if_neg left]
        · intro top _ within
          rw [size_put, List.length_singleton]
          omega
  | ref target =>
      refine Or.inr ⟨rfl, b.putRef target, _, rfl, rfl, ?_⟩
      intro top whole within
      rw [size_putRef]
      omega

theorem size_putFields (fields : List (Nat × Field)) (places : List (Nat × Nat)) {top : Nat}
    (whole : top % 4 = 0) (within : b.size ≤ top) :
    (fields.foldl putField (b, places)).1.storesZeros = b.storesZeros ∧
      (fields.foldl putField (b, places)).1.size ≤
        top + 4 * (written b.storesZeros fields).length ∧
      ∀ g ∈ (fields.foldl putField (b, places)).2,
        g ∈ places ∨ ∃ f ∈ written b.storesZeros fields, f.1 = g.1 := by
  -- The bound is in whole words all along, so that the zeros in front of a reference fit below it.
  induction fields generalizing b places top with
  | nil => exact ⟨rfl, within, fun g member => Or.inl member⟩
  | cons f fields ih =>
      rw [List.foldl_cons]
      rcases putField_cases b places f with ⟨left, same⟩ | ⟨one, c, place, next, zeros, grown⟩
      · rw [same, written, List.filter_cons_of_neg (by simpa using left)]
        exact ih places whole within
      · have further := grown top whole within
        obtain ⟨kept, size, slots⟩ := ih ((f.1, place) :: places) (by omega) further
        rw [next, written, List.filter_cons_of_pos (by simpa using one), List.length_cons]
        rw [zeros] at kept size slots
        refine ⟨kept, by unfold written at size; omega, ?_⟩
        intro g member
        rcases slots g member with old | ⟨e, there, same⟩
        · rcases List.mem_cons.mp old with rfl | old
          · exact Or.inr ⟨f, List.mem_cons_self .., rfl⟩
          · exact Or.inl old
        · exact Or.inr ⟨e, List.mem_cons_of_mem _ there, same⟩

theorem size_putStart (b : Layout) (entry : Bytes) :
    (b.putStart entry).storesZeros = b.storesZeros ∧
      ∃ more ≤ entry.length, (b.putStart entry).size = b.size + 4 + more := by
  unfold putStart
  split
  next place _ =>
    refine ⟨rfl, 0, Nat.zero_le _, ?_⟩
    rw [size_put, Bytes.length_ofNatLE, Nat.add_comm, Nat.add_zero]
  next =>
    refine ⟨rfl, entry.length, Nat.le_refl _, ?_⟩
    change ((b.put (Bytes.ofNatLE 4 entry.length)).put entry).size = _
    rw [size_put, size_put, Bytes.length_ofNatLE]
    omega

/-- A table behind whole words is in whole words itself, but for its directory. -/
theorem size_putTable (whole : b.size % 4 = 0) (fields : List (Nat × Field)) (reach : Nat)
    (four : 4 ≤ reach) (each : ∀ f ∈ written b.storesZeros fields, f.1 + 2 ≤ reach) :
    (b.putTable fields).1.storesZeros = b.storesZeros ∧
      ∃ start, start % 4 = 0 ∧ start ≤ b.size + 4 * (written b.storesZeros fields).length + 4 ∧
        ∃ more ≤ reach, (b.putTable fields).1.size = start + more := by
  obtain ⟨kept, size, slots⟩ := size_putFields fields [] whole (Nat.le_refl b.size)
  have width : width (fields.foldl putField (b, [])).2 ≤ reach := by
    apply width_le four
    intro g member
    rcases slots g member with none | ⟨f, there, same⟩
    · cases none
    · exact same ▸ each f there
  let c := ((fields.foldl putField (b, [])).1).align 4 4
  have padded : c.size = _ := size_align_eq (fields.foldl putField (b, [])).1 4
  have length := length_directory (fields.foldl putField (b, [])).2 (c.size + 4)
    (c.size + 4 - b.size)
  obtain ⟨zeros, more, within, total⟩ := size_putStart c
    (directory (fields.foldl putField (b, [])).2 (c.size + 4) (c.size + 4 - b.size))
  exact ⟨zeros.trans kept, c.size + 4, by omega, by omega, more, by omega, total⟩

structure Fits (b b' : Layout) (room : Nat) : Prop where
  zeros : b'.storesZeros = b.storesZeros
  size : b'.size ≤ b.size + room

theorem fits_putTable {fields : List (Nat × Field)} {b' : Layout} {place : Nat}
    (count reach : Nat) (put : b.putTable fields = (b', place)) (whole : b.size % 4 = 0)
    (few : (fields.map fun f => f.2.count b.storesZeros).sum = count) (four : 4 ≤ reach)
    (each : ∀ f ∈ written b.storesZeros fields, f.1 + 2 ≤ reach) :
    Fits b b' (4 * count + 4 + reach) := by
  obtain ⟨kept, start, _, near, more, within, total⟩ := size_putTable whole fields reach four each
  rw [length_written] at near
  rw [put] at kept total
  simp only at kept total
  exact ⟨kept, by omega⟩

theorem fits_putEcc? {order : KeyOrder} {d : EccDetails} {b' : Layout} {place : Nat}
    (put : putEcc? order b d = some (b', place)) :
    Fits b b' (4 + (Details.ecc d).visited b.storesZeros) := by
  rcases d with ⟨curve, recipient, sender⟩
  obtain ⟨recipient, rfl, put⟩ := Option.bind_eq_some_iff.mp put
  obtain ⟨c, first, put₁, zeros₁, _, size₁⟩ := size_putBytes b recipient
  rw [put₁] at put
  obtain ⟨sender, rfl, put⟩ := Option.bind_eq_some_iff.mp put
  obtain ⟨e, second, put₂, zeros₂, whole, size₂⟩ := size_putBytes c sender
  rw [put₂] at put
  have zeros := zeros₂.trans zeros₁
  have table := fits_putTable (byteCount b.storesZeros curve.toUInt8 + 2) 10
    (Option.some.inj put) whole (by
      rw [zeros]
      cases order <;> simp [eccFields, Field.count]
      omega) (by decide) (by
      intro f member
      rcases mem_eccFields.mp (mem_written.mp member).1 with rfl | rfl | rfl <;> simp [slots])
  have few := byteCount_le b.storesZeros curve.toUInt8
  have size := table.size
  refine ⟨table.zeros.trans zeros, ?_⟩
  simp only [Details.visited, Option.getD_some]
  omega

theorem fits_putServer? {d : ServerDetails} {b' : Layout} {place : Nat}
    (put : putServer? b d = some (b', place)) :
    Fits b b' (4 + (Details.server d).visited b.storesZeros) := by
  rcases d with ⟨curve, recipient, server, transaction⟩
  obtain ⟨recipient, rfl, put⟩ := Option.bind_eq_some_iff.mp put
  obtain ⟨c, first, put₁, zeros₁, _, size₁⟩ := size_putBytes b recipient
  rw [put₁] at put
  obtain ⟨server, rfl, put⟩ := Option.bind_eq_some_iff.mp put
  obtain ⟨e, second, put₂, zeros₂, _, size₂⟩ := size_putText c server
  rw [put₂] at put
  obtain ⟨transaction, rfl, put⟩ := Option.bind_eq_some_iff.mp put
  obtain ⟨g, third, put₃, zeros₃, whole, size₃⟩ := size_putText e transaction
  rw [put₃] at put
  have zeros := zeros₃.trans (zeros₂.trans zeros₁)
  have table := fits_putTable (byteCount b.storesZeros curve.toUInt8 + 3) 12
    (Option.some.inj put) whole (by
      rw [zeros]
      simp [serverFields, Field.count]) (by decide) (by
      intro f member
      rcases mem_serverFields.mp (mem_written.mp member).1 with rfl | rfl | rfl | rfl <;>
        simp [slots])
  have few := byteCount_le b.storesZeros curve.toUInt8
  have size := table.size
  refine ⟨table.zeros.trans zeros, ?_⟩
  simp only [Details.visited, Option.getD_some]
  omega

theorem fits_putOptional? {order : KeyOrder} {details : Option Details} {b' : Layout}
    {place : Option Nat} (put : putOptional? order b details = some (b', place)) :
    Fits b b' ((details.map fun d => 4 + d.visited b.storesZeros).getD 0) ∧
      place.isSome = details.isSome := by
  cases details with
  | none =>
      cases put
      exact ⟨⟨rfl, Nat.le_refl _⟩, rfl⟩
  | some d =>
      obtain ⟨⟨c, first⟩, written, same⟩ := Option.bind_eq_some_iff.mp put
      cases same
      refine ⟨?_, rfl⟩
      cases d with
      | ecc d => exact fits_putEcc? written
      | server d => exact fits_putServer? written

/-- What is counted for a record is more than what it takes, so that there is room for the reference
to it and for what comes in front of the first one. -/
theorem fits_putRecord? {order : KeyOrder} {r : Record} {b' : Layout} {place : Nat}
    (put : putRecord? order b r = some (b', place)) :
    Fits b b' (r.visited b.storesZeros + r.unread b.storesZeros + 3) := by
  rw [Record.visited_add_unread]
  rcases r with ⟨type, details, key, method⟩
  obtain ⟨⟨c, first⟩, put₁, put⟩ := Option.bind_eq_some_iff.mp put
  obtain ⟨key, rfl, put⟩ := Option.bind_eq_some_iff.mp put
  obtain ⟨e, second, put₂, zeros₂, whole, size₂⟩ := size_putBytes c key
  simp only [put₂] at put
  obtain ⟨⟨zeros₁, size₁⟩, there⟩ := fits_putOptional? put₁
  have zeros := zeros₂.trans zeros₁
  have table := fits_putTable (byteCount b.storesZeros type +
      (if details.isSome then 1 else 0) + 1 + byteCount b.storesZeros method.toUInt8)
    (10 + 2 * byteCount b.storesZeros method.toUInt8) (Option.some.inj put) whole (by
      rw [zeros, ← there]
      cases first <;> simp [recordFields, Field.count] <;> omega) (by omega) (by
      intro f member
      obtain ⟨listed, counted⟩ := mem_written.mp member
      rw [zeros] at counted
      rcases mem_recordFields.mp listed with rfl | ⟨place, _, rfl⟩ | rfl | rfl
      · simp [slots]
        omega
      · simp [slots]
        omega
      · simp [slots]
      · simp only [Field.count] at counted
        simp [slots, counted])
  have few := byteCount_le b.storesZeros type
  have little := byteCount_le b.storesZeros method.toUInt8
  have size := table.size
  refine ⟨table.zeros.trans zeros, ?_⟩
  have pair : (if details.isSome then 1 else 0) ≤ 1 := by split <;> omega
  simp only [Option.getD_some] at size₁ ⊢
  omega

theorem fits_putRecords? {order : KeyOrder} {rs : List Record} {b' : Layout} {places : List Nat}
    (put : putRecords? order b rs = some (b', places)) :
    Fits b b' ((rs.map (Record.visited b.storesZeros)).sum +
      (rs.map (Record.unread b.storesZeros)).sum + 3 * rs.length) ∧ places.length = rs.length := by
  induction rs generalizing b places with
  | nil =>
      cases put
      exact ⟨⟨rfl, Nat.le_refl _⟩, rfl⟩
  | cons r rs ih =>
      obtain ⟨⟨c, first⟩, put₁, put⟩ := Option.bind_eq_some_iff.mp put
      obtain ⟨⟨d, rest⟩, put₂, same⟩ := Option.bind_eq_some_iff.mp put
      cases same
      obtain ⟨zeros₁, size₁⟩ := fits_putRecord? put₁
      obtain ⟨⟨zeros₂, size₂⟩, count⟩ := ih put₂
      rw [zeros₁] at size₂
      refine ⟨⟨zeros₂.trans zeros₁, ?_⟩, by rw [List.length_cons, count, List.length_cons]⟩
      simp only [List.map_cons, List.sum_cons, List.length_cons]
      omega

theorem size_foldl_putRef (targets : List Nat) (whole : b.size % 4 = 0) :
    (targets.foldl putRef b).storesZeros = b.storesZeros ∧
      (targets.foldl putRef b).size = b.size + 4 * targets.length := by
  induction targets generalizing b with
  | nil => exact ⟨rfl, rfl⟩
  | cons target targets ih =>
      have next := size_putRef b target
      obtain ⟨zeros, size⟩ := ih (b := b.putRef target) (by omega)
      refine ⟨zeros, ?_⟩
      rw [List.foldl_cons, size, next, List.length_cons]
      omega

theorem size_putRefs (b : Layout) (targets : List Nat) :
    (b.putRefs targets).1.storesZeros = b.storesZeros ∧ (b.putRefs targets).1.size =
      b.size + (4 - (b.size + 4 * targets.length) % 4) % 4 + 4 * targets.length + 4 := by
  have padded := size_align_eq b (4 * targets.length)
  obtain ⟨zeros, size⟩ := size_foldl_putRef (b := b.align 4 (4 * targets.length)) targets.reverse
    (by omega)
  rw [List.length_reverse] at size
  refine ⟨zeros, ?_⟩
  have word : (b.putRefs targets).1 =
      ((targets.reverse.foldl putRef (b.align 4 (4 * targets.length))).align 4 4).put
        (Bytes.ofNatLE 4 targets.length) := rfl
  rw [word, size_put, Bytes.length_ofNatLE, size_align_eq, size, padded]
  omega

theorem size_putList? {order : KeyOrder} {zeros : Bool} {rs : List Record}
    {list : Option Nat} (put : putList? order (.empty zeros) (some rs) = some (b, list)) :
    b.storesZeros = zeros ∧ b.size % 4 = 0 ∧
      b.size ≤ 6 + 8 * rs.length + (rs.map (Record.visited zeros)).sum +
        (rs.map (Record.unread zeros)).sum := by
  obtain ⟨⟨c, places⟩, put₁, same⟩ := Option.bind_eq_some_iff.mp put
  obtain ⟨⟨kept, size⟩, count⟩ := fits_putRecords? put₁
  obtain ⟨next, refs⟩ := size_putRefs c places
  have made : (c.putRefs places).1 = b := congrArg Prod.fst (Option.some.inj same)
  rw [made] at next refs
  rw [show (empty zeros).storesZeros = zeros by rfl, show (empty zeros).size = 0 by rfl] at size
  refine ⟨next.trans kept, by omega, ?_⟩
  -- Without a record nothing comes before the list that it would have to be aligned with.
  cases rs with
  | nil =>
      simp only [List.length_nil, List.map_nil, List.sum_nil] at size count ⊢
      omega
  | cons r rs =>
      simp only [List.length_cons] at size count ⊢
      omega

end Layout

open Layout

/-- What is written is no longer than what the check counts and what it passes over. -/
theorem length_le_of_write? {zeros : Bool} {order : KeyOrder} {header : Header} {h : Bytes}
    (put : write? zeros order header = some h) :
    h.length ≤ header.visited zeros + header.unread zeros := by
  rcases header with ⟨records, method⟩
  obtain ⟨⟨b, list⟩, listed, same⟩ := Option.bind_eq_some_iff.mp put
  have little := byteCount_le zeros method.toUInt8
  have final : ((b.putTable (headerFields ⟨records, method⟩ list)).1.putRef
      (b.putTable (headerFields ⟨records, method⟩ list)).2).size = h.length :=
    congrArg List.length (Option.some.inj same)
  rw [size_putRef] at final
  cases records with
  | none =>
      cases listed
      obtain ⟨_, start, whole, near, more, within, total⟩ := size_putTable (b := .empty zeros) rfl
        (headerFields ⟨none, method⟩ none) (4 + 4 * byteCount zeros method.toUInt8) (by omega) (by
          intro f member
          obtain ⟨there, counted⟩ := mem_written.mp member
          rcases mem_headerFields.mp there with ⟨_, none, _⟩ | rfl
          · cases none
          · simp only [Field.count, empty] at counted
            simp [slots, counted])
      have count : ((headerFields ⟨none, method⟩ none).map fun f => f.2.count zeros).sum =
          byteCount zeros method.toUInt8 := by
        simp [headerFields, Field.count]
      rw [length_written, show (empty zeros).storesZeros = zeros by rfl, count,
        show (empty zeros).size = 0 by rfl] at near
      simp only [visited, unread]
      omega
  | some rs =>
      obtain ⟨flag, whole, size⟩ := size_putList? listed
      obtain ⟨_, start, even, near, more, within, total⟩ := size_putTable whole
        (headerFields ⟨some rs, method⟩ list) 8 (by decide) (by
          intro f member
          rcases mem_headerFields.mp (mem_written.mp member).1 with ⟨_, _, rfl⟩ | rfl <;>
            simp [slots])
      have count : ((headerFields ⟨some rs, method⟩ list).map fun f => f.2.count zeros).sum ≤
          1 + byteCount zeros method.toUInt8 := by
        cases list <;> simp [headerFields, Field.count]
      rw [length_written, flag] at near
      simp only [visited, unread, Option.getD_some]
      omega

end SealedContainer.Header
