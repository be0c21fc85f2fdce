import SealedContainer.Proofs.Header.Check
import SealedContainer.Proofs.Header.Contents

/-!
What a header counts when it is checked: one table for itself and one or two for each record, and
every number, text and list of bytes that is looked at. It is refused if and only if this goes
beyond the limits (`verified_iff_of_at`).
-/

namespace SealedContainer.Header

/-- The tables of a record. Details of an unknown type are not looked at. -/
def Record.tables (r : Record) : Nat := if r.seen.details.isSome then 2 else 1

def tables (header : Header) : Nat := 1 + ((header.records.getD []).map Record.tables).sum

def byteCount (zeros : Bool) (value : UInt8) : Nat := if value = 0 ∧ zeros = false then 0 else 1

def Details.visited (zeros : Bool) : Details → Nat
  | .ecc d => 38 + byteCount zeros d.curve.toUInt8 + (d.recipient.getD []).length +
      (d.sender.getD []).length
  | .server d => 50 + byteCount zeros d.curve.toUInt8 + (d.recipient.getD []).length +
      (Bytes.ofString (d.server.getD "")).length + (Bytes.ofString (d.transaction.getD "")).length

/-- The bytes that are counted for a record. A method that is stored makes the directory wider. -/
def Record.visited (zeros : Bool) (r : Record) : Nat :=
  30 + 5 * byteCount zeros r.keyMethod.toUInt8 + (r.wrappedKey.getD []).length +
    (if r.details.isSome then 1 else 0) +
      (r.seen.details.map fun d => 4 + d.visited zeros).getD 0

def visited (zeros : Bool) (header : Header) : Nat :=
  match header.records with
  | none => 14 + 9 * byteCount zeros header.payloadMethod.toUInt8
  | some rs => 26 + 5 * byteCount zeros header.payloadMethod.toUInt8 + 8 * rs.length +
      (rs.map (Record.visited zeros)).sum

section Bounds

variable (zeros : Bool)

theorem byteCount_le (value : UInt8) : byteCount zeros value ≤ 1 := by
  unfold byteCount
  split <;> omega

theorem Details.visited_le (d : Details) : d.visited zeros ≤ d.weight := by
  cases d with
  | ecc d =>
      have curve := byteCount_le zeros d.curve.toUInt8
      simp only [visited, weight]
      omega
  | server d =>
      have curve := byteCount_le zeros d.curve.toUInt8
      simp only [visited, weight]
      omega

theorem Record.visited_le (r : Record) : r.visited zeros ≤ r.weight := by
  have method := byteCount_le zeros r.keyMethod.toUInt8
  have seen : (r.seen.details.map fun d => 4 + d.visited zeros).getD 0 ≤
      4 + (r.details.map Details.weight).getD 0 := by
    unfold Record.seen
    cases r.details with
    | none => split <;> simp
    | some d =>
        have within := d.visited_le zeros
        split
        · simpa using within
        · simp
  have pair : (if r.details.isSome then 1 else 0) ≤ 1 := by split <;> omega
  unfold visited weight
  omega

theorem sum_visited_le (rs : List Record) :
    (rs.map (Record.visited zeros)).sum ≤ (rs.map Record.weight).sum := by
  induction rs with
  | nil => exact Nat.le_refl 0
  | cons r rs ih =>
      have first := r.visited_le zeros
      simp only [List.map_cons, List.sum_cons]
      omega

theorem visited_le (header : Header) : header.visited zeros ≤ header.weight := by
  have method := byteCount_le zeros header.payloadMethod.toUInt8
  unfold visited weight
  cases header.records with
  | none =>
      simp only [Option.getD_none, List.length_nil, List.map_nil, List.sum_nil]
      omega
  | some rs =>
      have sum := sum_visited_le zeros rs
      simp only [Option.getD_some]
      omega

end Bounds

namespace Verify

variable {α β : Type} {zeros : Bool} {h : Bytes}

/-- The check refuses the buffer where `cost` goes beyond the limits. -/
def Spends (check : Check α) (cost : Visited) : Prop :=
  ∀ v : Visited, v.Fits → ¬ (v + cost).Fits → check.run v = none

/-- What follows does not matter once the limits are passed. -/
theorem Spends.bind {check : Check α} {next : α → Check β} {cost : Visited}
    (spent : Spends check cost) : Spends (check >>= next) cost := by
  intro v fits beyond
  rw [StateT.run_bind, spent v fits beyond]
  rfl

theorem Takes.bind_spends {check : Check α} {next : α → Check β} {a : α} {cost more : Visited}
    (first : Takes check a cost) (second : Spends (next a) more) :
    Spends (check >>= next) (cost + more) := by
  intro v fits beyond
  rw [StateT.run_bind, first v fits]
  by_cases room : (v + cost).Fits
  · rw [if_pos room]
    exact second (v + cost) room (by rwa [Visited.add_assoc])
  · rw [if_neg room]
    rfl

theorem slotCost_of_lt {places : List (Nat × Nat)} {slot : Nat}
    (reached : slot < Layout.width places) : slotCost places slot = ⟨2, 0⟩ := by
  rw [slotCost, if_pos reached]

theorem slotCost_of_le {places : List (Nat × Nat)} {slot : Nat}
    (beyond : Layout.width places ≤ slot) : slotCost places slot = 0 := by
  rw [slotCost, if_neg (Nat.not_lt.mpr beyond)]
  rfl

/-- A byte in the last slot that a table can have: if it is stored, the directory reaches to it and
it is looked up. -/
theorem width_add_slotCost {start dir : Nat} {places : List (Nat × Nat)}
    (table : TableAt h start dir places) {slot : Nat} {value : UInt8} (slotted : Slotted slot)
    (narrow : Layout.width places ≤ slot + 2) (at_ : ByteAt zeros h places slot value)
    (wide : slot ≤ Layout.width places) :
    Layout.width places + (slotCost places slot).size = slot + 4 * byteCount zeros value := by
  unfold ByteAt at at_
  unfold byteCount
  split at at_
  next left =>
    have short := table.width_le_of_missing slotted narrow at_
    rw [if_pos left, slotCost_of_le short]
    simp only [Visited.size_zero]
    omega
  next written =>
    obtain ⟨place, found, _⟩ := at_
    have reached := (table.lookup_inside found).1
    rw [if_neg written, slotCost_of_lt (by omega)]
    simp only
    omega

theorem width_add_slotCosts {start dir : Nat} {places : List (Nat × Nat)}
    (table : TableAt h start dir places) {value : UInt8}
    (narrow : Layout.width places ≤ slots.payloadMethod + 2)
    (at_ : ByteAt zeros h places slots.payloadMethod value)
    (missing : places.lookup slots.records = none) :
    Layout.width places + (slotCost places slots.records).size +
      (slotCost places slots.payloadMethod).size = 4 + 8 * byteCount zeros value := by
  have low := (width_spec places table.slotted).1
  unfold ByteAt at at_
  unfold byteCount
  split at at_
  next left =>
    have short := table.width_le_of_missing (by decide) narrow at_
    have shorter : Layout.width places ≤ slots.records :=
      table.width_le_of_missing (by decide) short missing
    have four : slots.records = 4 := rfl
    rw [if_pos left, slotCost_of_le short, slotCost_of_le shorter]
    simp only [Visited.size_zero]
    omega
  next written =>
    obtain ⟨place, found, _⟩ := at_
    have reached : 8 ≤ Layout.width places := (table.lookup_inside found).1
    have width : Layout.width places = 8 := Nat.le_antisymm narrow reached
    rw [if_neg written, slotCost_of_lt (by rw [width]; decide),
      slotCost_of_lt (by rw [width]; decide), width]
    rfl

variable (whole : h.length % 4 = 0)

include whole

theorem spends_follow {place target : Nat} {check : Nat → Check Unit} {cost : Visited}
    (at_ : RefAt h place target) (spent : Spends (check (h.length - target)) cost) :
    Spends (follow h check (h.length - place)) (⟨4, 0⟩ + cost) := by
  rcases takes_ref whole at_ with ⟨number, landing⟩
  refine Takes.bind_spends number ?_
  rw [landing]
  exact spent

section Tables

variable {start dir : Nat} {places : List (Nat × Nat)} (table : TableAt h start dir places)

include table

theorem takes_byteField {slot : Nat} {value : UInt8} (slotted : Slotted slot)
    (at_ : ByteAt zeros h places slot value) :
    Takes ((Table.of h start dir places).visit h slot false (byte h)) ()
      (slotCost places slot + ⟨byteCount zeros value, 0⟩) := by
  unfold ByteAt at at_
  unfold byteCount
  split at at_
  next left =>
    rw [if_pos left]
    exact takes_visit_none whole table slotted at_
  next written =>
    obtain ⟨place, found, stored⟩ := at_
    rw [if_neg written]
    exact takes_visit_some whole table slotted found (takes_byte stored)

theorem takes_refField {slot target : Nat} {check : Nat → Check Unit} {cost : Visited}
    (required : Bool) (slotted : Slotted slot) (at_ : LinkAt h places slot target)
    (taken : Takes (check (h.length - target)) () cost) :
    Takes ((Table.of h start dir places).visit h slot required (follow h check)) ()
      (⟨6, 0⟩ + cost) := by
  obtain ⟨place, found, stored⟩ := at_
  have reached := (table.lookup_inside found).1
  have reads : slotCost places slot = ⟨2, 0⟩ := slotCost_of_lt (by omega)
  have same : (⟨6, 0⟩ + cost : Visited) = slotCost places slot + (⟨4, 0⟩ + cost) := by
    rw [reads, ← Visited.add_assoc]
    rfl
  rw [same]
  exact takes_visit_some whole table slotted found (takes_follow whole stored taken)

theorem spends_refField {slot target : Nat} {check : Nat → Check Unit} {cost : Visited}
    (required : Bool) (slotted : Slotted slot) (at_ : LinkAt h places slot target)
    (spent : Spends (check (h.length - target)) cost) :
    Spends ((Table.of h start dir places).visit h slot required (follow h check))
      (slotCost places slot + (⟨4, 0⟩ + cost)) := by
  rcases at_ with ⟨place, found, stored⟩
  have field := takes_field whole table slotted
  rw [found] at field
  exact Takes.bind_spends field (spends_follow whole stored spent)

end Tables

theorem takes_ecc {p : EccPlaces} {curve : Int8} {recipient sender : Bytes}
    (at_ : EccAt zeros h p curve recipient sender) :
    Takes (ecc h (h.length - p.table)) ()
      ⟨(Details.ecc ⟨curve, some recipient, some sender⟩).visited zeros, 1⟩ := by
  have wide := at_.toSender.reached at_.table
  have narrow := at_.narrow
  have width : Layout.width p.fields = 10 := Nat.le_antisymm narrow wide
  have looked : slotCost p.fields slots.curve = ⟨2, 0⟩ :=
    slotCost_of_lt (by rw [width]; decide)
  refine Takes.congr (Takes.bind (takes_table whole at_.table)
    (Takes.bind (takes_byteField whole at_.table (by decide) at_.curve)
      (Takes.bind
        (takes_refField whole at_.table true (by decide) at_.toRecipient
          (takes_bytes whole at_.recipient))
        (takes_refField whole at_.table true (by decide) at_.toSender
          (takes_bytes whole at_.sender))))) ?_ rfl
  simp only [Visited.size_add, width, looked, Details.visited, Option.getD_some]
  omega

theorem takes_server {p : ServerPlaces} {curve : Int8} {recipient : Bytes}
    {server transaction : String} (at_ : ServerAt zeros h p curve recipient server transaction) :
    Takes (Verify.server h (h.length - p.table)) ()
      ⟨(Details.server ⟨curve, some recipient, some server, some transaction⟩).visited zeros,
        1⟩ := by
  have wide := at_.toTransaction.reached at_.table
  have narrow := (width_spec p.fields at_.table.slotted).2.1
  have width : Layout.width p.fields = 12 := Nat.le_antisymm narrow wide
  have looked : slotCost p.fields slots.curve = ⟨2, 0⟩ :=
    slotCost_of_lt (by rw [width]; decide)
  refine Takes.congr (Takes.bind (takes_table whole at_.table)
    (Takes.bind (takes_byteField whole at_.table (by decide) at_.curve)
      (Takes.bind
        (takes_refField whole at_.table true (by decide) at_.toRecipient
          (takes_bytes whole at_.recipient))
        (Takes.bind
          (takes_refField whole at_.table true (by decide) at_.toServer
            (takes_text whole at_.server))
          (takes_refField whole at_.table true (by decide) at_.toTransaction
            (takes_text whole at_.transaction)))))) ?_ rfl
  simp only [Visited.size_add, width, looked, Details.visited, Option.getD_some]
  omega

/-- What is counted for details beyond their type: nothing, if the type is not known. -/
def followed (zeros : Bool) (r : Record) : Visited :=
  ⟨(r.seen.details.map fun d => 4 + d.visited zeros).getD 0, if r.seen.details.isSome then 1 else 0⟩

theorem takes_known {r : Record} {place target : Nat} {d : Details} (there : r.details = some d)
    (fitting : r.Fitting) (link : RefAt h place target) (stored : DetailsAt zeros h target d) :
    Takes (if r.detailsType = 1 then follow h (ecc h) (h.length - place)
        else if r.detailsType = 2 then follow h (Verify.server h) (h.length - place)
        else pure ()) () (followed zeros r) := by
  simp only [followed, Record.seen, there]
  by_cases one : r.detailsType = 1
  · have kind := fitting.1 one d there
    cases stored with
    | ecc keys =>
        rw [if_pos one]
        exact Takes.congr (takes_follow whole link (takes_ecc whole keys)) (by simp [one])
          (by simp [one])
    | server => simp [Record.ecc?, there] at kind
  · by_cases two : r.detailsType = 2
    · have kind := fitting.2 two d there
      cases stored with
      | ecc => simp [Record.server?, there] at kind
      | server parts =>
          rw [if_neg one, if_pos two]
          exact Takes.congr (takes_follow whole link (takes_server whole parts)) (by simp [two])
            (by simp [two])
    · rw [if_neg one, if_neg two]
      exact Takes.congr (takes_pure ()) (by simp [one, two]) (by simp [one, two])

theorem takes_details {p : RecordPlaces} {r : Record} (at_ : RecordAt zeros h p r)
    (fitting : r.Fitting) (paired : r.Paired zeros) :
    Takes (details h (Table.of h p.table p.dir p.fields)) ()
      (⟨4 + if r.details.isSome then 1 else 0, 0⟩ + followed zeros r) := by
  have wide : 10 ≤ Layout.width p.fields := at_.toKey.reached at_.table
  have value := takes_field whole at_.table (show Slotted slots.details by decide)
  have type := takes_field whole at_.table (show Slotted slots.detailsType by decide)
  rw [slotCost_of_lt (Nat.lt_of_lt_of_le (by decide) wide)] at value type
  have typed := at_.type.isSome_lookup
  rw [← paired] at typed
  have stored := at_.details
  split at stored
  next target d here there =>
    obtain ⟨⟨place, found, link⟩, content⟩ := stored
    rw [there, Option.isSome_some] at typed
    obtain ⟨typePlace, typeFound⟩ := Option.isSome_iff_exists.mp typed
    have tag := at_.type.stored typeFound
    rw [found] at value
    rw [typeFound] at type
    exact Takes.congr (Takes.bind value (Takes.bind type (Takes.bind (takes_byte tag)
      (Takes.bind (takes_liftM (u8At?_of_at tag)) (takes_known whole there fitting link content)))))
      (by simp [there]; omega) (by simp)
  next here there =>
    rw [there, Option.isSome_none, Option.isSome_eq_false_iff, Option.isNone_iff_eq_none] at typed
    rw [stored] at value
    rw [typed] at type
    exact Takes.congr (Takes.bind value (Takes.bind type (takes_pure ())))
      (by simp [followed, Record.seen, there]) (by simp [followed, Record.seen, there])
  next => exact stored.elim

theorem takes_record {p : RecordPlaces} {r : Record} (at_ : RecordAt zeros h p r)
    (fitting : r.Fitting) (paired : r.Paired zeros) :
    Takes (record h (h.length - p.table)) () ⟨r.visited zeros, r.tables⟩ := by
  rcases at_.key with ⟨content, same, stored⟩
  have last := width_add_slotCost at_.table (show Slotted slots.keyMethod by decide)
    (width_spec p.fields at_.table.slotted).2.1 at_.method (at_.toKey.reached at_.table)
  refine Takes.congr (Takes.bind (takes_table whole at_.table)
    (Takes.bind (takes_details whole at_ fitting paired)
      (Takes.bind
        (takes_refField whole at_.table true (by decide) at_.toKey (takes_bytes whole stored))
        (takes_byteField whole at_.table (by decide) at_.method)))) ?_ ?_
  · have ten : slots.keyMethod = 10 := rfl
    simp only [Visited.size_add, Record.visited, followed, same, Option.getD_some]
    omega
  · simp only [Visited.tables_add, followed, slotCost, Record.tables]
    split <;> rfl

theorem takes_eachRecord {place : Nat} {ps : List RecordPlaces} {rs : List Record}
    (at_ : RecordsAt zeros h place ps rs) (fitting : ∀ r ∈ rs, r.Fitting)
    (paired : ∀ r ∈ rs, r.Paired zeros) :
    Takes (eachRecord h rs.length (h.length - place)) ()
      ⟨4 * rs.length + (rs.map (Record.visited zeros)).sum, (rs.map Record.tables).sum⟩ := by
  induction at_ with
  | nil => exact takes_pure ()
  | cons first record rest ih =>
      have later := ih (fun r member => fitting r (List.mem_cons_of_mem _ member))
        (fun r member => paired r (List.mem_cons_of_mem _ member))
      rw [← first.next] at later
      refine Takes.congr (Takes.bind (takes_follow whole first (takes_record whole record
        (fitting _ (List.mem_cons_self ..)) (paired _ (List.mem_cons_self ..)))) later) ?_ ?_
      · simp only [List.map_cons, List.sum_cons, List.length_cons, Visited.size_add]
        omega
      · simp only [List.map_cons, List.sum_cons, Visited.tables_add]
        omega

/-- The first records of a longer list are counted, whatever follows them. -/
theorem spends_eachRecord {place : Nat} {ps : List RecordPlaces} {rs : List Record}
    (at_ : RecordsAt zeros h place ps rs) (fitting : ∀ r ∈ rs, r.Fitting)
    (paired : ∀ r ∈ rs, r.Paired zeros) (more : Nat) :
    ∃ cost, cost.tables = (rs.map Record.tables).sum ∧
      Spends (eachRecord h (rs.length + more) (h.length - place)) cost := by
  induction at_ with
  | nil =>
      refine ⟨0, rfl, ?_⟩
      intro v fits beyond
      exact absurd fits beyond
  | @cons place p r ps rs first record rest ih =>
      have taken := takes_record whole record (fitting _ (List.mem_cons_self ..))
        (paired _ (List.mem_cons_self ..))
      obtain ⟨others, sum, spent⟩ := ih (fun r member => fitting r (List.mem_cons_of_mem _ member))
        (fun r member => paired r (List.mem_cons_of_mem _ member))
      refine ⟨(⟨4, 0⟩ + ⟨r.visited zeros, r.tables⟩) + others, ?_, ?_⟩
      · simp only [Visited.tables_add, sum, List.map_cons, List.sum_cons]
        omega
      · rw [List.length_cons, Nat.add_right_comm]
        refine Takes.bind_spends (takes_follow whole first taken) ?_
        rw [first.next]
        exact spent

theorem takes_list {place : Nat} {known : List RecordPlaces} {rs : List Record}
    (at_ : ListAt zeros h place known rs) :
    Takes (elements h 4 (h.length - place)) (h.length - (place - 4), rs.length)
      ⟨4 + rs.length * 4, 0⟩ := by
  have inside := at_.count.place_le
  have room := at_.room
  rw [← at_.behind]
  exact takes_elements whole at_.number at_.aligned inside rfl (by omega)

theorem takes_records {place : Nat} {known : List RecordPlaces} {rs : List Record}
    (at_ : ListAt zeros h place known rs) (complete : known.length = rs.length)
    (fitting : ∀ r ∈ rs, r.Fitting) (paired : ∀ r ∈ rs, r.Paired zeros) :
    Takes (records h (h.length - place)) ()
      ⟨4 + 8 * rs.length + (rs.map (Record.visited zeros)).sum, (rs.map Record.tables).sum⟩ := by
  have stored := at_.records
  rw [complete, List.take_length] at stored
  refine Takes.congr (Takes.bind (takes_list whole at_)
    (takes_eachRecord whole stored fitting paired)) ?_ ?_
  · simp only [Visited.size_add]
    omega
  · simp only [Visited.tables_add, Nat.zero_add]

theorem spends_records {place : Nat} {known : List RecordPlaces} {rs : List Record}
    (at_ : ListAt zeros h place known rs) (fitting : ∀ r ∈ rs, r.Fitting)
    (paired : ∀ r ∈ rs, r.Paired zeros) :
    ∃ cost, cost.tables = ((rs.take known.length).map Record.tables).sum ∧
      Spends (records h (h.length - place)) cost := by
  obtain ⟨cost, sum, spent⟩ := spends_eachRecord whole at_.records
    (fun r member => fitting r (List.mem_of_mem_take member))
    (fun r member => paired r (List.mem_of_mem_take member)) (rs.length - known.length)
  have first := at_.first
  have count : (rs.take known.length).length + (rs.length - known.length) = rs.length := by
    rw [List.length_take]
    omega
  rw [count] at spent
  refine ⟨_, ?_, Takes.bind_spends (takes_list whole at_) spent⟩
  rw [Visited.tables_add, sum, Nat.zero_add]

end Verify

open Verify

variable {zeros : Bool} {h : Bytes} {p : HeaderPlaces} {header : Header}

theorem takes_header (at_ : HeaderAt zeros h p header) (complete : p.Complete header)
    (fitting : ∀ rs, header.records = some rs → ∀ r ∈ rs, r.Fitting)
    (paired : ∀ rs, header.records = some rs → ∀ r ∈ rs, r.Paired zeros) :
    Takes (follow h (Verify.header h) 0) () ⟨header.visited zeros, header.tables⟩ := by
  have whole := at_.whole
  have table := at_.table
  have method := takes_byteField whole table (show Slotted slots.payloadMethod by decide) at_.method
  have six : slots.payloadMethod = 6 := rfl
  have stored := at_.records
  have checked : Takes (Verify.header h (h.length - p.table)) ()
      ⟨header.visited zeros - 4, header.tables⟩ := by
    split at stored
    next place rs here there =>
      obtain ⟨link, list⟩ := stored
      have last := width_add_slotCost table (show Slotted slots.payloadMethod by decide)
        at_.narrow at_.method (link.reached table)
      refine Takes.congr (Takes.bind (takes_table whole table)
        (Takes.bind (takes_refField whole table false (by decide) link
          (takes_records whole list (complete rs there) (fitting rs there) (paired rs there)))
          method)) ?_ ?_
      · simp only [Visited.size_add, visited, there]
        omega
      · simp only [Visited.tables_add, slotCost, Header.tables, there, Option.getD_some]
        omega
    next here there =>
      have last := width_add_slotCosts table at_.narrow at_.method stored
      refine Takes.congr (Takes.bind (takes_table whole table)
        (Takes.bind (takes_visit_none whole table (by decide) stored) method)) ?_ ?_
      · simp only [Visited.size_add, visited, there]
        omega
      · simp [Header.tables, there, slotCost]
    next => exact stored.elim
  have followed := takes_follow whole at_.root checked
  rw [Nat.sub_self] at followed
  refine Takes.congr followed ?_ (Nat.zero_add _)
  have low : 4 ≤ header.visited zeros := by
    unfold visited
    split <;> omega
  simp only [Visited.size_add]
  omega

/-- A stored header passes if and only if it is within the limits. -/
theorem verified_iff_of_at (at_ : HeaderAt zeros h p header) (complete : p.Complete header)
    (fitting : ∀ rs, header.records = some rs → ∀ r ∈ rs, r.Fitting)
    (paired : ∀ rs, header.records = some rs → ∀ r ∈ rs, r.Paired zeros) :
    verified h = true ↔ header.tables ≤ maxTables ∧ header.visited zeros ≤ maxSize := by
  have start : (0 : Visited).Fits := by decide
  have run := takes_header at_ complete fitting paired 0 start
  rw [Visited.zero_add] at run
  rw [verified, show (⟨0, 0⟩ : Visited) = 0 by rfl, run]
  split
  next room => exact ⟨fun _ => ⟨room.2, room.1⟩, fun _ => rfl⟩
  next beyond =>
    constructor
    · intro accepted
      cases accepted
    · intro within
      exact absurd ⟨within.2, within.1⟩ beyond

/-- What passes has no more tables than the limit, of which one is that of the header. -/
theorem tables_le_of_verified (at_ : HeaderAt zeros h p header)
    (fitting : ∀ rs, header.records = some rs → ∀ r ∈ rs, r.Fitting)
    (paired : ∀ rs, header.records = some rs → ∀ r ∈ rs, r.Paired zeros)
    (accepted : verified h = true) :
    1 + (((header.records.getD []).take p.records.length).map Record.tables).sum ≤ maxTables := by
  have whole := at_.whole
  have start : (0 : Visited).Fits := by decide
  have stored := at_.records
  split at stored
  · rename_i place rs here there
    rcases stored with ⟨link, list⟩
    rcases spends_records whole list (fitting rs there) (paired rs there) with ⟨cost, sum, spent⟩
    have root : Spends (follow h (Verify.header h) (h.length - h.length)) _ :=
      spends_follow whole at_.root (Takes.bind_spends (takes_table whole at_.table)
        (spends_refField whole at_.table false (by decide) link spent).bind)
    rw [Nat.sub_self] at root
    have beyond := root 0 start
    rw [verified, show (⟨0, 0⟩ : Visited) = 0 by rfl] at accepted
    refine Decidable.byContradiction fun more => ?_
    rw [beyond] at accepted
    · cases accepted
    · intro room
      have few := room.2
      simp only [Visited.tables_add, Visited.tables_zero, slotCost, sum] at few
      rw [there, Option.getD_some] at more
      omega
  · rename_i here there
    simp [there, maxTables]
  · exact stored.elim

end SealedContainer.Header
