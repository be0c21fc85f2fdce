import SealedContainer.Proofs.Header.Safety
import SealedContainer.Proofs.Header.Size

/-!
Every header that the tables can hold is read back as it was written, and refused only for its size.
Type and details of a record belong together: with one of them alone no header passes the check.
-/

namespace SealedContainer.Header

def Complete (header : Header) : Prop := ∀ r ∈ header.records.getD [], r.Complete

instance : DecidablePred Complete := fun header =>
  inferInstanceAs (Decidable (∀ r ∈ header.records.getD [], r.Complete))

/-- A type with the details that belong to it. Any details may have an unknown type. -/
def Record.Typed (r : Record) : Prop :=
  match r.details with
  | none => r.detailsType = 0
  | some (.ecc _) => r.detailsType = 1 ∨ 3 ≤ r.detailsType
  | some (.server _) => r.detailsType = 2 ∨ 3 ≤ r.detailsType

instance : DecidablePred Record.Typed
  | ⟨type, none, _, _⟩ => inferInstanceAs (Decidable (type = 0))
  | ⟨type, some (.ecc _), _, _⟩ => inferInstanceAs (Decidable (type = 1 ∨ 3 ≤ type))
  | ⟨type, some (.server _), _, _⟩ => inferInstanceAs (Decidable (type = 2 ∨ 3 ≤ type))

def Typed (header : Header) : Prop := ∀ r ∈ header.records.getD [], r.Typed

instance : DecidablePred Typed := fun header =>
  inferInstanceAs (Decidable (∀ r ∈ header.records.getD [], r.Typed))

def Record.Unpaired (r : Record) : Prop := r.detailsType = 0 ↔ r.details.isSome

instance : DecidablePred Record.Unpaired := fun _ => inferInstanceAs (Decidable (_ ↔ _))

namespace Record

variable {r : Record}

theorem Typed.fitting (typed : r.Typed) : r.Fitting := by
  rcases r with ⟨type, details, key, method⟩
  constructor
  · intro one d there
    simp only at one there
    subst one there
    cases d with
    | ecc => rfl
    | server => simp [Record.Typed] at typed
  · intro two d there
    simp only at two there
    subst two there
    cases d with
    | ecc => simp [Record.Typed] at typed
    | server => rfl

theorem not_paired_iff : ¬ r.Paired false ↔ r.Unpaired := by
  unfold Paired Unpaired
  by_cases zero : r.detailsType = 0 <;> cases r.details <;> simp [zero]

theorem ne_of_unknown {type known : UInt8} (unknown : 3 ≤ type) (low : known < 3) :
    type ≠ known := by
  intro same
  subst same
  exact absurd unknown (UInt8.not_le.mpr low)

theorem Typed.paired (typed : r.Typed) : r.Paired false := by
  unfold Typed at typed
  unfold Paired
  split at typed
  next there => simp [there, typed]
  next there =>
    rcases typed with one | unknown
    · simp [there, one]
    · simp [there, ne_of_unknown unknown (show 0 < 3 by decide)]
  next there =>
    rcases typed with two | unknown
    · simp [there, two]
    · simp [there, ne_of_unknown unknown (show 0 < 3 by decide)]

theorem Typed.seen_eq_self (typed : r.Typed) (known : r.detailsType ≤ 2) : r.seen = r := by
  have other : ¬ 3 ≤ r.detailsType := by
    intro unknown
    exact absurd (UInt8.le_trans unknown known) (by decide)
  unfold Typed at typed
  rcases r with ⟨type, details, key, method⟩
  simp only at typed other
  cases details with
  | none => simp [seen]
  | some d =>
      cases d with
      | ecc d => simp [seen, typed.resolve_right other]
      | server d => simp [seen, typed.resolve_right other]

theorem seen_of_unknown (unknown : 3 ≤ r.detailsType) : r.seen = { r with details := none } := by
  have one := ne_of_unknown unknown (show 1 < 3 by decide)
  have two := ne_of_unknown unknown (show 2 < 3 by decide)
  simp [seen, one, two]

end Record

namespace Verify

variable {zeros : Bool} {h : Bytes}

theorem Gives.together {t : Table} (checked : t.Checked h) {u : Unit}
    (given : Gives (Verify.details h t) u) :
    ∃ value type, fieldAt? h t.pos slots.details = some value ∧
      fieldAt? h t.pos slots.detailsType = some type ∧ value.isSome = type.isSome := by
  rcases given.bind with ⟨value, valueField, given⟩
  rcases given.bind with ⟨type, typeField, given⟩
  refine ⟨value, type, valueField.field checked (by decide),
    typeField.field checked (by decide), ?_⟩
  cases value with
  | none =>
      cases type with
      | none => rfl
      | some =>
          rcases given with ⟨_, _, run⟩
          cases run
  | some =>
      cases type with
      | none =>
          rcases given with ⟨_, _, run⟩
          cases run
      | some => rfl

theorem Gives.paired {p : RecordPlaces} {r : Record} (at_ : RecordAt zeros h p r) {u : Unit}
    (given : Gives (Verify.record h (h.length - p.table)) u) : r.Paired zeros := by
  rcases given.bind with ⟨t, passed, given⟩
  rcases given.bind with ⟨_, details, _⟩
  obtain ⟨same, checked⟩ := passed.table
  obtain ⟨value, type, valueAt, typeAt, together⟩ := details.together checked
  rw [same, at_.table.fieldAt?_eq (by decide), Option.some.injEq] at valueAt typeAt
  have there : value.isSome = r.details.isSome := by
    have stored := at_.details
    rw [← valueAt, Option.isSome_map]
    split at stored
    next place d _ held =>
      obtain ⟨⟨_, found, _⟩, _⟩ := stored
      rw [found, held]
      rfl
    next _ held =>
      rw [stored, held]
      rfl
    next => exact stored.elim
  rw [← typeAt, Option.isSome_map, at_.type.isSome_lookup] at together
  exact there.symm.trans together

theorem Gives.eachPaired {place : Nat} {ps : List RecordPlaces} {rs : List Record}
    (at_ : RecordsAt zeros h place ps rs) {u : Unit}
    (given : Gives (Verify.eachRecord h rs.length (h.length - place)) u) :
    ∀ r ∈ rs, r.Paired zeros := by
  induction at_ generalizing u with
  | nil => simp
  | cons first record rest ih =>
      rcases given.bind with ⟨_, here, later⟩
      obtain ⟨target, reached, inner⟩ := here.follow
      rw [followAt?_of_at first, Option.some.injEq] at reached
      subst reached
      rw [first.next] at later
      intro r member
      rcases List.mem_cons.mp member with rfl | member
      · exact inner.paired record
      · exact ih later r member

end Verify

open Verify

/-- A type without details is refused, and so are details without a type. -/
theorem paired_of_verified {zeros : Bool} {h : Bytes} {p : HeaderPlaces} {header : Header}
    (at_ : HeaderAt zeros h p header) (complete : p.Complete header)
    (accepted : verified h = true) : ∀ r ∈ header.records.getD [], r.Paired zeros := by
  rcases Option.isSome_iff_exists.mp accepted with ⟨⟨u, v⟩, run⟩
  have given : Gives (Verify.follow h (Verify.header h) 0) u := ⟨_, v, run⟩
  obtain ⟨root, reached, given⟩ := given.follow
  rw [rootAt?_of_at at_, Option.some.injEq] at reached
  subst reached
  rcases given.bind with ⟨t, passed, given⟩
  rcases given.bind with ⟨_, visited, _⟩
  obtain ⟨same, checked⟩ := passed.table
  have stored := at_.records
  split at stored
  next place rs _ held =>
    obtain ⟨⟨spot, found, link⟩, list⟩ := stored
    rcases visited.visit checked (by decide) with ⟨pos, there, inner⟩ | ⟨missing, _⟩
    · rw [same, at_.table.fieldAt?_eq (by decide), found, Option.map_some, Option.some.injEq,
        Option.some.injEq] at there
      subst there
      obtain ⟨target, landed, each⟩ := inner.follow
      rw [followAt?_of_at link, Option.some.injEq] at landed
      subst landed
      rcases each.bind with ⟨⟨start, count⟩, items, each⟩
      obtain ⟨begins, number, _⟩ := items.elements
      have counted : u32At? h (h.length - place) = some rs.length := list.number
      simp only at begins number each
      rw [counted, Option.some.injEq] at number
      rw [← number, begins, list.behind] at each
      have known := list.records
      rw [complete rs held, List.take_length] at known
      rw [held]
      exact each.eachPaired known
    · rw [same, at_.table.fieldAt?_eq (by decide), found] at missing
      cases missing
  next _ held =>
    rw [held]
    simp
  next => exact stored.elim

/-- Any header with all required parts is written. Unless it is larger than a buffer can be, it
passes the check if and only if it is within the limits, and then all of its records are read as
they were, except that details of an unknown type are not looked at. Without a type for its details,
or without details for its type, it does not pass. The size of the buffer is no further limit: it is
part of what is counted, but for details of an unknown type. -/
theorem schema_read_back (order : Layout.KeyOrder) (header : Header) (complete : header.Complete) :
    ∃ h, toBytes? order header = some h ∧
      h.length ≤ header.visited false + header.unread false ∧
      (h.length ≤ maxSize →
        (header.Typed →
          (verified h = true ↔ header.tables ≤ maxTables ∧ header.visited false ≤ maxSize) ∧
          (verified h = true → ofBytes? h = some header.seen) ∧
          ∀ r ∈ header.records.getD [],
            (r.detailsType ≤ 2 → r.seen = r) ∧
              (3 ≤ r.detailsType → r.seen = { r with details := none })) ∧
        ((∃ r ∈ header.records.getD [], r.Unpaired) → verified h = false)) := by
  have each : ∀ {P : Record → Prop}, (∀ r ∈ header.records.getD [], P r) →
      ∀ rs, header.records = some rs → ∀ r ∈ rs, P r := by
    intro P all rs there
    rwa [there, Option.getD_some] at all
  obtain ⟨h, ps, written⟩ := write?_spec false order header (each complete)
  refine ⟨h, written.put, length_le_of_write? written.put, ?_⟩
  intro small
  obtain ⟨p, at_, _, places⟩ := written.headerAt small
  constructor
  · intro typed
    have fitting := each fun r member => (typed r member).fitting
    have limits := verified_iff_of_at at_ places fitting (each fun r member =>
      (typed r member).paired)
    refine ⟨limits, ?_, ?_⟩
    · intro accepted
      rw [ofBytes?, if_pos accepted, read?_of_at at_ places fitting]
    · intro r member
      exact ⟨(typed r member).seen_eq_self, Record.seen_of_unknown⟩
  · intro unpaired
    obtain ⟨r, member, alone⟩ := unpaired
    rw [Bool.eq_false_iff]
    intro accepted
    exact Record.not_paired_iff.mpr alone (paired_of_verified at_ places accepted r member)

def everyKind : Header where
  records := some [
    ⟨0, none, some [], 0⟩,
    ⟨1, some (.ecc ⟨0, some [], some [5]⟩), some [6], 1⟩,
    ⟨2, some (.server ⟨-1, some [7], some "", some "é"⟩), some [], 0⟩,
    ⟨255, some (.server ⟨0, some [], some "a", some "b"⟩), some [8], -128⟩]
  payloadMethod := 0

def untyped : Header where
  records := some [⟨0, some (.ecc ⟨2, some [4], some [5]⟩), some [6], 1⟩]
  payloadMethod := 1

theorem everyKind_read_back :
    (∃ h, toBytes? .curveFirst everyKind = some h ∧ verified h = true ∧
      ofBytes? h = some everyKind.seen) ∧
    ∃ h, toBytes? .curveLast untyped = some h ∧ verified h = false := by
  constructor
  · obtain ⟨h, put, short, read⟩ := schema_read_back .curveFirst everyKind (by decide)
    obtain ⟨limits, back, _⟩ := (read (Nat.le_trans short (by decide +kernel))).1 (by decide)
    have accepted := limits.mpr (by decide +kernel)
    exact ⟨h, put, accepted, back accepted⟩
  · obtain ⟨h, put, short, read⟩ := schema_read_back .curveLast untyped (by decide)
    have refused := (read (Nat.le_trans short (by decide +kernel))).2
    exact ⟨h, put, refused ⟨_, List.mem_singleton_self _, by decide⟩⟩

end SealedContainer.Header
