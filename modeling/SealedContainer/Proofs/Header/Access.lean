import SealedContainer.Proofs.Header.Check
import SealedContainer.Proofs.Header.Safety

/-!
Reading a header on bare memory, which goes on before and behind the buffer. Nothing is checked on
the way: every distance is followed wherever it leads, and a text is whatever bytes are there.

Reading with the bounds checked before each step is the reading of the tables. Where that succeeds,
the reading on bare memory gives the same and never leaves the buffer.
-/

namespace SealedContainer.Header

structure Read where
  place : Int
  size : Nat

def Read.Inside (r : Read) (h : Bytes) : Prop := 0 ≤ r.place ∧ r.place + r.size ≤ h.length

instance (r : Read) (h : Bytes) : Decidable (r.Inside h) := by unfold Read.Inside; infer_instance

abbrev Memory := Int → UInt8

namespace Memory

def read (m : Memory) (r : Read) : Bytes := (List.range r.size).map fun (i : Nat) => m (r.place + i)

def Holds (m : Memory) (h : Bytes) : Prop := ∀ (i : Nat) (inside : i < h.length), m i = h[i]

theorem Holds.read_eq {m : Memory} {h : Bytes} (holds : m.Holds h) {r : Read}
    (inside : r.Inside h) : m.read r = (h.drop r.place.toNat).take r.size := by
  rcases inside with ⟨low, high⟩
  apply List.ext_getElem
  · simp only [read, List.length_map, List.length_range, List.length_take, List.length_drop]
    omega
  · intro i left right
    simp only [read, List.length_map, List.length_range] at left
    simp only [read, List.getElem_map, List.getElem_range, List.getElem_take, List.getElem_drop]
    rw [← holds (r.place.toNat + i) (by omega)]
    congr 1
    omega

end Memory

/-- Reads one after the other, where each may depend on what the reads before it gave. A fault is
what a text with broken bytes comes to. -/
inductive Access (α : Type) where
  | done (value : α)
  | fault
  | step (r : Read) (next : Bytes → Access α)

namespace Access

variable {α β : Type}

def bind : Access α → (α → Access β) → Access β
  | done a, next => next a
  | fault, _ => fault
  | step r rest, next => step r fun bytes => (rest bytes).bind next

instance : Monad Access where
  pure := done
  bind := bind

def eval (m : Memory) : Access α → Option α
  | done a => some a
  | fault => none
  | step r next => (next (m.read r)).eval m

def reads (m : Memory) : Access α → List Read
  | done _ => []
  | fault => []
  | step r next => r :: (next (m.read r)).reads m

/-- What comes out where a read that leaves the buffer is refused. -/
def checked (h : Bytes) : Access α → Option α
  | done a => some a
  | fault => none
  | step r next =>
    if r.Inside h then (next ((h.drop r.place.toNat).take r.size)).checked h else none

theorem eval_of_checked {m : Memory} {h : Bytes} (holds : m.Holds h) {access : Access α} {a : α}
    (passed : access.checked h = some a) :
    access.eval m = some a ∧ ∀ r ∈ access.reads m, r.Inside h := by
  induction access with
  | done b => exact ⟨passed, by simp [reads]⟩
  | fault => cases passed
  | step r next ih =>
      unfold checked at passed
      split at passed
      · rename_i inside
        rw [← holds.read_eq inside] at passed
        rcases ih _ passed with ⟨result, later⟩
        refine ⟨result, ?_⟩
        intro s member
        rcases List.mem_cons.mp member with rfl | member
        · exact inside
        · exact later s member
      · cases passed

theorem checked_pure (h : Bytes) (a : α) : (pure a : Access α).checked h = some a := rfl

theorem checked_bind (h : Bytes) (access : Access α) (next : α → Access β) :
    (access >>= next).checked h = (access.checked h).bind fun a => (next a).checked h := by
  change (access.bind next).checked h = _
  induction access with
  | done a => rfl
  | fault => rfl
  | step r rest ih =>
      simp only [bind, checked]
      split
      · exact ih _
      · rfl

def number (width : Nat) (place : Int) : Access Nat :=
  step ⟨place, width⟩ fun bytes => done (Bytes.toNatLE bytes)

def byte (place : Int) : Access UInt8 := step ⟨place, 1⟩ fun bytes => done (bytes.headD 0)

def directory (table : Int) : Access Int := do
  return table - (Int32.ofNat (← number 4 table)).toInt

def field (table : Int) (slot : Nat) : Access (Option Int) := do
  let directory ← directory table
  if slot + 2 ≤ (← number 2 directory) then
    let distance ← number 2 (directory + slot)
    return if distance = 0 then none else some (table + distance)
  else return none

def byteField (table : Int) (slot : Nat) : Access UInt8 := do
  match ← field table slot with
  | some place => byte place
  | none => return 0

def follow (place : Int) : Access Int := do return place + (← number 4 place)

def bytes (place : Int) : Access Bytes := do
  step ⟨place + 4, ← number 4 place⟩ done

def text (place : Int) : Access String := do
  match Bytes.toString? (← bytes place) with
  | some text => return text
  | none => fault

def refField (get : Int → Access α) (table : Int) (slot : Nat) : Access (Option α) := do
  match ← field table slot with
  | some place => return some (← get (← follow place))
  | none => return none

def ecc (table : Int) : Access EccDetails := do
  return ⟨(← byteField table slots.curve).toInt8, ← refField bytes table slots.recipient,
    ← refField bytes table slots.sender⟩

def server (table : Int) : Access ServerDetails := do
  return ⟨(← byteField table slots.curve).toInt8, ← refField bytes table slots.recipient,
    ← refField text table slots.server, ← refField text table slots.transaction⟩

def details (table : Int) (type : UInt8) : Access (Option Details) := do
  if type = 1 then return (← refField ecc table slots.details).map .ecc
  else if type = 2 then return (← refField server table slots.details).map .server
  else return none

def record (table : Int) : Access Record := do
  let type ← byteField table slots.detailsType
  return ⟨type, ← details table type, ← refField bytes table slots.wrappedKey,
    (← byteField table slots.keyMethod).toInt8⟩

def records : (count : Nat) → (place : Int) → Access (List Record)
  | 0, _ => return []
  | count + 1, place => do
    let first ← record (← follow place)
    return first :: (← records count (place + 4))

def list (place : Int) : Access (List Record) := do records (← number 4 place) (place + 4)

def header : Access Header := do
  let table ← follow 0
  return ⟨← refField list table slots.records, (← byteField table slots.payloadMethod).toInt8⟩

/-! With its bounds checked, every access is the reader of the same part. -/

section Checked

variable (h : Bytes)

theorem inside_iff {pos size : Nat} : (Read.mk pos size).Inside h ↔ pos + size ≤ h.length := by
  unfold Read.Inside
  simp only
  omega

theorem checked_number {width : Nat} (positive : 0 < width) (pos : Nat) :
    (number width pos).checked h = numberAt? h width pos := by
  have full : ((h.drop pos).take width).length = width ↔ pos + width ≤ h.length := by
    rw [List.length_take, List.length_drop]
    omega
  simp only [number, checked, inside_iff, numberAt?, full, Int.toNat_natCast]

theorem checked_byte (pos : Nat) : (byte pos).checked h = u8At? h pos := by
  simp only [byte, checked, inside_iff, u8At?, Int.toNat_natCast]
  split
  · rename_i inside
    rw [List.getElem?_eq_getElem (by omega), List.drop_eq_getElem_cons (by omega)]
    rfl
  · rename_i outside
    rw [List.getElem?_eq_none (by omega)]

theorem checked_number_of_neg {width : Nat} {place : Int} (negative : place < 0) :
    (number width place).checked h = none := by
  have outside : ¬ (Read.mk place width).Inside h := by
    unfold Read.Inside
    simp only
    omega
  simp only [number, checked, if_neg outside]

theorem checked_field (table slot : Nat) :
    (field table slot).checked h =
      (fieldAt? h table slot).map (Option.map fun (pos : Nat) => (pos : Int)) := by
  simp only [field, directory, checked_bind, checked_pure, checked_number h (show 0 < 4 by decide),
    fieldAt?, directoryAt?, u32At?, Option.bind_eq_bind]
  cases numberAt? h 4 table with
  | none => rfl
  | some back =>
      simp only [Option.bind_some]
      by_cases negative : (table : Int) - (Int32.ofNat back).toInt < 0
      · simp only [checked_number_of_neg h negative, if_pos negative, Option.bind_none,
          Option.map_none]
      · obtain ⟨place, same⟩ := Int.eq_ofNat_of_zero_le (Int.not_lt.mp negative)
        have slotted : ((place : Int) + slot) = ((place + slot : Nat) : Int) := rfl
        simp only [same, if_neg (Int.not_lt.mpr (Int.natCast_nonneg place)), Option.bind_some,
          Int.toNat_natCast, checked_number h (show 0 < 2 by decide), u16At?]
        cases numberAt? h 2 place with
        | none => rfl
        | some size =>
            simp only [Option.bind_some]
            by_cases reached : slot + 2 ≤ size
            · simp only [if_pos reached, checked_bind, slotted,
                checked_number h (show 0 < 2 by decide), checked_pure]
              cases numberAt? h 2 (place + slot) with
              | none => rfl
              | some distance =>
                  simp only [Option.bind_some]
                  split <;> rfl
            · simp only [if_neg reached, checked_pure]
              rfl

theorem checked_byteField (table slot : Nat) :
    (byteField table slot).checked h = byteField? h table slot := by
  simp only [byteField, checked_bind, checked_field, byteField?, Option.bind_eq_bind]
  rcases fieldAt? h table slot with _ | _ | pos
  · rfl
  · rfl
  · exact checked_byte h pos

theorem checked_follow (pos : Nat) :
    (follow pos).checked h = (followAt? h pos).map fun (target : Nat) => (target : Int) := by
  simp only [follow, checked_bind, checked_pure, checked_number h (show 0 < 4 by decide),
    followAt?, u32At?, Option.bind_eq_bind]
  cases numberAt? h 4 pos <;> rfl

theorem checked_bytes (pos : Nat) : (bytes pos).checked h = bytesAt? h pos := by
  simp only [bytes, checked_bind, checked_number h (show 0 < 4 by decide), bytesAt?, u32At?,
    Option.bind_eq_bind]
  cases counted : numberAt? h 4 pos with
  | none => rfl
  | some count =>
      have full : ((h.drop (pos + 4)).take count).length = count ↔ pos + 4 + count ≤ h.length := by
        have start := Verify.inside_of_numberAt? counted (by decide)
        rw [List.length_take, List.length_drop]
        omega
      have place : ((pos : Int) + 4) = ((pos + 4 : Nat) : Int) := rfl
      simp only [Option.bind_some, checked, place, inside_iff, full, Int.toNat_natCast]

theorem checked_text (pos : Nat) :
    (text pos).checked h = (bytesAt? h pos).bind Bytes.toString? := by
  simp only [text, checked_bind, checked_bytes]
  cases bytesAt? h pos with
  | none => rfl
  | some content =>
      simp only [Option.bind_some]
      cases Bytes.toString? content <;> rfl

theorem checked_refField {get : Int → Access α} {read : Nat → Option α}
    (same : ∀ pos : Nat, (get pos).checked h = read pos) (table slot : Nat) :
    (refField get table slot).checked h = refField? read h table slot := by
  simp only [refField, checked_bind, checked_field, refField?, Option.bind_eq_bind]
  rcases fieldAt? h table slot with _ | _ | pos
  · rfl
  · rfl
  · simp only [Option.map_some, Option.bind_some, checked_bind, checked_follow]
    rcases followAt? h pos with _ | target
    · rfl
    · simp only [Option.map_some, Option.bind_some, same, checked_pure]
      cases read target <;> rfl

theorem checked_ecc (table : Nat) : (ecc table).checked h = readEcc? h table := by
  simp only [ecc, checked_bind, checked_pure, checked_byteField,
    checked_refField h (checked_bytes h), readEcc?, bytesField?]
  rfl

theorem checked_server (table : Nat) : (server table).checked h = readServer? h table := by
  simp only [server, checked_bind, checked_pure, checked_byteField,
    checked_refField h (checked_bytes h), checked_refField h (checked_text h), readServer?,
    bytesField?, textField?]
  rfl

theorem checked_details (table : Nat) (type : UInt8) :
    (details table type).checked h = readDetails? h table type := by
  unfold details readDetails?
  by_cases one : type = 1
  · simp only [if_pos one, checked_bind, checked_pure, checked_refField h (checked_ecc h)]
    cases refField? (readEcc? h) h table slots.details <;> rfl
  · by_cases two : type = 2
    · simp only [if_neg one, if_pos two, checked_bind, checked_pure,
        checked_refField h (checked_server h)]
      cases refField? (readServer? h) h table slots.details <;> rfl
    · simp only [if_neg one, if_neg two, checked_pure]

theorem checked_record (table : Nat) : (record table).checked h = readRecord? h table := by
  simp only [record, checked_bind, checked_pure, checked_byteField, checked_details,
    checked_refField h (checked_bytes h), readRecord?, bytesField?]
  rfl

theorem checked_records (count pos : Nat) :
    (records count pos).checked h = readRecords? h count pos := by
  induction count generalizing pos with
  | zero => rfl
  | succ count ih =>
      have next : ((pos : Int) + 4) = ((pos + 4 : Nat) : Int) := rfl
      simp only [records, checked_bind, checked_follow, readRecords?, Option.bind_eq_bind]
      cases followAt? h pos with
      | none => rfl
      | some target =>
          simp only [Option.map_some, Option.bind_some, checked_record, checked_pure, next, ih]
          rfl

theorem checked_list (pos : Nat) :
    (list pos).checked h = (u32At? h pos).bind fun count => readRecords? h count (pos + 4) := by
  have first : ((pos : Int) + 4) = ((pos + 4 : Nat) : Int) := rfl
  simp only [list, checked_bind, checked_number h (show 0 < 4 by decide), first, checked_records,
    u32At?]

theorem checked_header : header.checked h = read? h := by
  have root : (follow 0).checked h = _ := checked_follow h 0
  simp only [header, checked_bind, root, read?, Option.bind_eq_bind]
  cases followAt? h 0 with
  | none => rfl
  | some table =>
      simp only [Option.map_some, Option.bind_some, checked_refField h (checked_list h),
        checked_byteField, checked_pure]
      rfl

end Checked

end Access

end SealedContainer.Header
