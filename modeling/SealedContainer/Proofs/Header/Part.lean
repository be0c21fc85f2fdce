import SealedContainer.Proofs.Header.Contents

/-!
The parts of a header that hold keys and choices, and where a reader finds each of them. A header
may be changed in one part only, and then nothing moves.
-/

namespace SealedContainer.Header

structure Span where
  start : Nat
  size : Nat
  deriving DecidableEq, Repr

namespace Span

def of (s : Span) (h : Bytes) : Bytes := (h.drop s.start).take s.size

theorem getElem?_start (s : Span) {h : Bytes} {b : UInt8} {rest : Bytes} (held : s.of h = b :: rest) :
    h[s.start]? = some b ∧ 0 < s.size := by
  have entry := congrArg (·[0]?) held
  have size := congrArg List.length held
  simp only [of, List.length_take, List.length_cons] at size
  simp only [of, List.getElem?_cons_zero] at entry
  rw [List.getElem?_take_of_lt (by omega), List.getElem?_drop] at entry
  exact ⟨entry, by omega⟩

def Covers (s : Span) (i : Nat) : Prop := s.start ≤ i ∧ i < s.start + s.size

instance (s : Span) : DecidablePred s.Covers := fun _ => inferInstanceAs (Decidable (_ ∧ _))

def Only (s : Span) (h h' : Bytes) : Prop :=
  h'.length = h.length ∧ ∀ i, ¬ s.Covers i → h'[i]? = h[i]?

theorem Only.eq_append {front x back h' : Bytes} (s : Span) (start : s.start = front.length)
    (size : s.size = x.length) (only : s.Only (front ++ (x ++ back)) h') :
    h' = front ++ (s.of h' ++ back) ∧ (s.of h').length = x.length := by
  rcases only with ⟨same, outside⟩
  simp only [List.length_append] at same
  have full : (s.of h').length = x.length := by
    rw [of, List.length_take, List.length_drop]
    omega
  have ahead : h'.take front.length = front := by
    apply List.ext_getElem?
    intro i
    rw [List.getElem?_take]
    by_cases inside : i < front.length
    · rw [if_pos inside, outside i (by unfold Covers; omega), List.getElem?_append_left inside]
    · rw [if_neg inside, List.getElem?_eq_none (Nat.le_of_not_lt inside)]
  have behind : h'.drop (front.length + x.length) = back := by
    apply List.ext_getElem?
    intro i
    rw [List.getElem?_drop, outside _ (by unfold Covers; omega),
      List.getElem?_append_right (by omega), List.getElem?_append_right (by omega)]
    congr 1
    omega
  refine ⟨?_, full⟩
  have middle : s.of h' ++ back = h'.drop front.length := by
    rw [of, start, size, ← behind, ← List.drop_drop, List.take_append_drop]
  rw [middle]
  have split := List.take_append_drop front.length h'
  rw [ahead] at split
  exact split.symm

theorem Only.eq_of_same {s : Span} {h h' : Bytes} (only : s.Only h h') (same : s.of h' = s.of h) :
    h' = h := by
  apply List.ext_getElem?
  intro i
  by_cases inside : s.Covers i
  · rcases inside with ⟨low, high⟩
    have entry := congrArg (·[i - s.start]?) same
    simp only [of] at entry
    rw [List.getElem?_take_of_lt (by omega), List.getElem?_take_of_lt (by omega),
      List.getElem?_drop, List.getElem?_drop, Nat.add_sub_cancel' low] at entry
    exact entry
  · exact only.2 i inside

def patch (s : Span) (h h' : Bytes) : Bytes :=
  h.mapIdx fun i byte => if s.Covers i then h'.getD i 0 else byte

section Patch

variable (s : Span) {h h' : Bytes} (same : h'.length = h.length)

theorem only_patch (h h' : Bytes) : s.Only h (s.patch h h') := by
  refine ⟨List.length_mapIdx, ?_⟩
  intro i outside
  simp only [patch, List.getElem?_mapIdx, if_neg outside, Option.map_id']

include same

theorem getElem?_patch {i : Nat} (inside : s.Covers i) : (s.patch h h')[i]? = h'[i]? := by
  simp only [patch, List.getElem?_mapIdx, if_pos inside]
  by_cases short : i < h.length
  · have short' : i < h'.length := by rwa [same]
    simp [short, short']
  · rw [List.getElem?_eq_none (Nat.le_of_not_lt short),
      List.getElem?_eq_none (by rw [same]; exact Nat.le_of_not_lt short)]
    rfl

end Patch

end Span

inductive RecordPart where
  | recipient
  | sender
  | wrappedKey
  | detailsType
  | curve
  | keyMethod
  deriving DecidableEq, Repr

/-- The parts of a header. Those of the records go by the index of the record. -/
inductive Part where
  | ofRecord (i : Nat) (part : RecordPart)
  | payloadMethod
  deriving DecidableEq, Repr

def contentSpan? (h : Bytes) (table slot : Nat) : Option Span := do
  let start ← followAt? h (← (← fieldAt? h table slot))
  return ⟨start + 4, ← u32At? h start⟩

def byteSpan? (h : Bytes) (table slot : Nat) : Option Span := do
  return ⟨← (← fieldAt? h table slot), 1⟩

def recordAt? (h : Bytes) (i : Nat) : Option Nat := do
  let table ← followAt? h 0
  let list ← followAt? h (← (← fieldAt? h table slots.records))
  followAt? h (list + 4 + 4 * i)

def detailsAt? (h : Bytes) (i : Nat) : Option Nat := do
  followAt? h (← (← fieldAt? h (← recordAt? h i) slots.details))

def span? (h : Bytes) : Part → Option Span
  | .ofRecord i .recipient => do contentSpan? h (← detailsAt? h i) slots.recipient
  | .ofRecord i .sender => do contentSpan? h (← detailsAt? h i) slots.sender
  | .ofRecord i .wrappedKey => do contentSpan? h (← recordAt? h i) slots.wrappedKey
  | .ofRecord i .detailsType => do byteSpan? h (← recordAt? h i) slots.detailsType
  | .ofRecord i .curve => do byteSpan? h (← detailsAt? h i) slots.curve
  | .ofRecord i .keyMethod => do byteSpan? h (← recordAt? h i) slots.keyMethod
  | .payloadMethod => do byteSpan? h (← followAt? h 0) slots.payloadMethod

/-- These are parts of no other record. -/
def OnlyAt (i : Nat) (parts : List Part) : Prop := ∀ j part, .ofRecord j part ∈ parts → j = i

/-- Only bytes of these parts of the header were changed. -/
def Confined (parts : List Part) (h h' : Bytes) : Prop :=
  h'.length = h.length ∧
    ∀ i, (∀ part ∈ parts, ∀ span, span? h part = some span → ¬ span.Covers i) → h'[i]? = h[i]?

theorem Confined.only {h h' : Bytes} {part : Part} {span : Span} (confined : Confined [part] h h')
    (found : span? h part = some span) : span.Only h h' := by
  rcases confined with ⟨same, outside⟩
  refine ⟨same, ?_⟩
  intro i free
  apply outside i
  intro other member span' found'
  obtain rfl := List.mem_singleton.mp member
  rw [found, Option.some.injEq] at found'
  rwa [← found']

variable {h : Bytes} {start dir : Nat} {fields : List (Nat × Nat)}

theorem contentSpan?_of_at (table : TableAt h start dir fields) {slot target : Nat}
    {content : Bytes} (slotted : Slotted slot) (at_ : LinkAt h fields slot target)
    (stored : BytesAt h target content) :
    contentSpan? h (h.length - start) slot =
      some ⟨h.length - (target - 4), content.length⟩ := by
  rcases at_ with ⟨place, found, link⟩
  have count : u32At? h (h.length - target) = some content.length := stored.count
  have low := stored.stored.length_le
  have high := stored.stored.place_le
  rw [List.length_append, Bytes.length_ofNatLE] at low
  simp only [contentSpan?, table.fieldAt?_eq slotted, found, Option.map_some,
    Option.bind_eq_bind, Option.bind_some, followAt?_of_at link, count]
  change some (Span.mk _ _) = _
  congr 2
  omega

theorem byteSpan?_of_lookup (table : TableAt h start dir fields) {slot place : Nat}
    (slotted : Slotted slot) (found : fields.lookup slot = some place) :
    byteSpan? h (h.length - start) slot = some ⟨h.length - place, 1⟩ := by
  simp only [byteSpan?, table.fieldAt?_eq slotted, found, Option.map_some, Option.bind_eq_bind,
    Option.bind_some]
  rfl

theorem RecordsAt.get {zeros : Bool} {place i : Nat} {ps : List RecordPlaces} {rs : List Record}
    {p : RecordPlaces} {r : Record} (at_ : RecordsAt zeros h place ps rs) (known : ps[i]? = some p)
    (there : rs[i]? = some r) : RefAt h (place - 4 * i) p.table ∧ RecordAt zeros h p r := by
  induction at_ generalizing i with
  | nil => simp at known
  | cons first record rest ih =>
      cases i with
      | zero =>
          simp only [List.getElem?_cons_zero, Option.some.injEq] at known there
          subst known there
          exact ⟨first, record⟩
      | succ i =>
          simp only [List.getElem?_cons_succ] at known there
          rcases ih known there with ⟨link, stored⟩
          refine ⟨?_, stored⟩
          rwa [Nat.mul_succ, Nat.add_comm, ← Nat.sub_sub]

variable {zeros : Bool} {places : HeaderPlaces} {header : Header} {i : Nat} {p : RecordPlaces}
  {r : Record}

theorem recordAt?_of_at (at_ : HeaderAt zeros h places header) (known : places.records[i]? = some p)
    (there : (header.records.getD [])[i]? = some r) :
    recordAt? h i = some (h.length - p.table) ∧ RecordAt zeros h p r := by
  have records := at_.records
  split at records
  · rename_i list rs here held
    rcases records with ⟨⟨place, found, link⟩, stored⟩
    rw [held, Option.getD_some] at there
    have early : (rs.take places.records.length)[i]? = some r := by
      rw [List.getElem?_take_of_lt (List.getElem?_eq_some_iff.mp known).1]
      exact there
    rcases stored.records.get known early with ⟨ref, record⟩
    have inside := (List.getElem?_eq_some_iff.mp known).1
    have within := stored.first
    have low := stored.room
    have high := stored.count.place_le
    have position : h.length - list + 4 + 4 * i = h.length - (list - 4 - 4 * i) := by omega
    refine ⟨?_, record⟩
    simp only [recordAt?, rootAt?_of_at at_, at_.table.fieldAt?_eq (show Slotted slots.records by
      decide), found, Option.map_some, Option.bind_eq_bind, Option.bind_some,
      followAt?_of_at link, position, followAt?_of_at ref]
  · rename_i here held
    rw [held] at there
    simp at there
  · exact records.elim

theorem detailsAt?_of_at (at_ : HeaderAt zeros h places header)
    (known : places.records[i]? = some p) (there : (header.records.getD [])[i]? = some r) {target : Nat}
    (details : p.details = some target) :
    detailsAt? h i = some (h.length - target) := by
  rcases recordAt?_of_at at_ known there with ⟨position, record⟩
  have stored := record.details
  rw [details] at stored
  split at stored
  · rename_i place d here held
    cases here
    rcases stored with ⟨⟨place, found, link⟩, _⟩
    simp only [detailsAt?, position, record.table.fieldAt?_eq (show Slotted slots.details by
      decide), found, Option.map_some, Option.bind_eq_bind, Option.bind_some,
      followAt?_of_at link]
  · rename_i here _
    cases here
  · exact stored.elim

def RecordPart.place? (p : RecordPlaces) (q : EccPlaces) : RecordPart → Option Nat
  | .recipient => some (q.recipient - 4)
  | .sender => some (q.sender - 4)
  | .wrappedKey => some (p.key - 4)
  | .detailsType => p.fields.lookup slots.detailsType
  | .curve => q.fields.lookup slots.curve
  | .keyMethod => p.fields.lookup slots.keyMethod

end SealedContainer.Header
