import SealedContainer.Header.Verify
import SealedContainer.Proofs.Bytes

/-!
A buffer that passes the check is read without fault, and the required parts of its records are
there. Each step of the check says what it has made sure of, and the reading of a table follows the
check of the table.
-/

namespace SealedContainer.Header

/-- Details as the check leaves them: of a known type they are there with all required parts, of
another type they are not read. -/
inductive Details.Guarded : UInt8 → Option Details → Prop where
  | ecc {keys : EccDetails} (recipient : keys.recipient.isSome) (sender : keys.sender.isSome) :
      Guarded 1 (some (.ecc keys))
  | server {s : ServerDetails} (recipient : s.recipient.isSome) (server : s.server.isSome)
      (transaction : s.transaction.isSome) : Guarded 2 (some (.server s))
  | other {type : UInt8} (one : type ≠ 1) (two : type ≠ 2) : Guarded type none

structure Record.Guarded (r : Record) : Prop where
  key : r.wrappedKey.isSome
  details : Details.Guarded r.detailsType r.details

namespace Verify

variable {α β : Type} {h : Bytes}

/-- The check can give `a`. -/
def Gives (check : Check α) (a : α) : Prop := ∃ v v', check.run v = some (a, v')

theorem Gives.bind {check : Check α} {next : α → Check β} {b : β}
    (given : Gives (check >>= next) b) : ∃ a, Gives check a ∧ Gives (next a) b := by
  rcases given with ⟨v, v'', run⟩
  rw [StateT.run_bind] at run
  rcases Option.bind_eq_some_iff.mp run with ⟨⟨a, v'⟩, first, second⟩
  exact ⟨a, ⟨v, v', first⟩, ⟨v', v'', second⟩⟩

theorem Gives.pure {a b : α} (given : Gives (pure a) b) : a = b := by
  rcases given with ⟨v, v', run⟩
  cases run
  rfl

theorem Gives.require {p : Prop} [Decidable p] {u : Unit} (given : Gives (require p) u) : p := by
  rcases given with ⟨v, v', run⟩
  unfold Verify.require at run
  by_cases holds : p
  · exact holds
  · rw [if_neg holds] at run
    cases run

theorem Gives.liftM {x : Option α} {a : α} (given : Gives (liftM x : Check α) a) :
    x = some a := by
  rcases given with ⟨v, v', run⟩
  cases x with
  | none => cases run
  | some b =>
      cases run
      rfl

theorem Gives.range {pos size : Nat} {u : Unit} (given : Gives (range h pos size) u) :
    pos + size ≤ h.length := by
  rcases given.bind with ⟨_, inside, _⟩
  exact inside.require

theorem Gives.number {width pos n : Nat} (given : Gives (number h width pos) n) :
    pos % width = 0 ∧ pos + width ≤ h.length ∧ numberAt? h width pos = some n := by
  rcases given.bind with ⟨_, aligned, given⟩
  rcases given.bind with ⟨_, inside, read⟩
  exact ⟨aligned.require, inside.range, read.liftM⟩

/-- A table that passed, with an even size and a directory inside the buffer. -/
structure Table.Checked (h : Bytes) (t : Table) : Prop where
  directory : directoryAt? h t.pos = some t.directory
  size : u16At? h t.directory = some t.size
  even : t.size % 2 = 0
  inside : t.directory + t.size ≤ h.length

theorem Gives.table {pos : Nat} {t : Table} (given : Gives (table h pos) t) :
    t.pos = pos ∧ t.Checked h := by
  rcases given.bind with ⟨_, _, given⟩
  rcases given.bind with ⟨directory, found, given⟩
  rcases given.bind with ⟨_, _, given⟩
  rcases given.bind with ⟨size, read, given⟩
  rcases given.bind with ⟨_, even, given⟩
  rcases given.bind with ⟨_, inside, given⟩
  rcases given.bind with ⟨_, _, given⟩
  have same := given.pure
  rcases read.number with ⟨aligned, _, number⟩
  have whole := even.require
  subst same
  exact ⟨rfl, found.liftM, number, by simp only; omega, inside.range⟩

theorem Gives.field {t : Table} (checked : t.Checked h) {slot : Nat} {found : Option Nat}
    (even : slot % 2 = 0) (given : Gives (t.field h slot) found) :
    fieldAt? h t.pos slot = some found := by
  have parity := checked.even
  simp only [fieldAt?, checked.directory, checked.size, Option.bind_eq_bind, Option.bind_some]
  unfold Table.field at given
  by_cases reached : slot < t.size
  · rw [if_pos reached] at given
    rcases given.bind with ⟨distance, read, given⟩
    have number : u16At? h (t.directory + slot) = some distance := read.number.2.2
    rw [if_pos (by omega), number, Option.bind_some, given.pure]
    rfl
  · rw [if_neg reached] at given
    rw [if_neg (by omega), given.pure]
    rfl

theorem Gives.visit {t : Table} (checked : t.Checked h) {slot : Nat} {required : Bool}
    {check : Nat → Check Unit} {u : Unit} (even : slot % 2 = 0)
    (given : Gives (t.visit h slot required check) u) :
    (∃ pos, fieldAt? h t.pos slot = some (some pos) ∧ Gives (check pos) ()) ∨
      (fieldAt? h t.pos slot = some none ∧ required = false) := by
  rcases given.bind with ⟨found, looked, given⟩
  have field := looked.field checked even
  cases found with
  | some pos => exact Or.inl ⟨pos, field, given⟩
  | none => exact Or.inr ⟨field, given.require⟩

theorem Gives.follow {check : Nat → Check Unit} {pos : Nat} {u : Unit}
    (given : Gives (follow h check pos) u) :
    ∃ target, followAt? h pos = some target ∧ Gives (check target) () := by
  rcases given.bind with ⟨n, read, given⟩
  have number : u32At? h pos = some n := read.number.2.2
  exact ⟨pos + n, by rw [followAt?, number]; rfl, given⟩

theorem Gives.elements {width pos : Nat} {list : Nat × Nat}
    (given : Gives (elements h width pos) list) :
    list.1 = pos + 4 ∧ u32At? h pos = some list.2 ∧ pos + 4 + list.2 * width ≤ h.length := by
  rcases given.bind with ⟨count, read, given⟩
  rcases given.bind with ⟨_, _, given⟩
  rcases given.bind with ⟨_, inside, given⟩
  have room := inside.range
  rw [← given.pure]
  exact ⟨rfl, read.number.2.2, room⟩

theorem bytesAt?_of_inside {pos count : Nat} (read : u32At? h pos = some count)
    (inside : pos + 4 + count * 1 ≤ h.length) :
    bytesAt? h pos = some ((h.drop (pos + 4)).take count) := by
  have full : ((h.drop (pos + 4)).take count).length = count := by
    rw [List.length_take, List.length_drop]
    omega
  simp only [bytesAt?, read, Option.bind_eq_bind, Option.bind_some, full, if_true]

theorem Gives.bytes {pos : Nat} {u : Unit} (given : Gives (bytes h pos) u) :
    ∃ content, bytesAt? h pos = some content := by
  rcases given.bind with ⟨list, passed, _⟩
  rcases passed.elements with ⟨_, read, inside⟩
  exact ⟨_, bytesAt?_of_inside read inside⟩

theorem Gives.text {pos : Nat} {u : Unit} (given : Gives (Verify.text h pos) u) :
    ∃ text, (bytesAt? h pos).bind Bytes.toString? = some text := by
  rcases given.bind with ⟨⟨start, count⟩, passed, given⟩
  rcases given.bind with ⟨_, formed, _⟩
  rcases passed.elements with ⟨same, read, inside⟩
  have valid := formed.require
  simp only at same read inside
  subst same
  rw [bytesAt?_of_inside read inside, Option.bind_some]
  exact Option.isSome_iff_exists.mp valid

theorem Gives.byte {pos : Nat} {u : Unit} (given : Gives (byte h pos) u) :
    ∃ value, u8At? h pos = some value := by
  rcases given.bind with ⟨_, read, _⟩
  have inside := read.number.2.1
  exact ⟨h[pos], List.getElem?_eq_getElem (by omega)⟩

theorem Gives.byteField {t : Table} (checked : t.Checked h) {slot : Nat} {required : Bool}
    {u : Unit} (even : slot % 2 = 0) (given : Gives (t.visit h slot required (Verify.byte h)) u) :
    ∃ value, byteField? h t.pos slot = some value := by
  rcases given.visit checked even with ⟨pos, found, passed⟩ | ⟨missing, _⟩
  · rcases passed.byte with ⟨value, read⟩
    exact ⟨value, by simp only [byteField?, found, Option.bind_eq_bind, Option.bind_some, read]⟩
  · exact ⟨0, by simp only [byteField?, missing, Option.bind_eq_bind, Option.bind_some]; rfl⟩

theorem Gives.refField {t : Table} (checked : t.Checked h) {slot : Nat} {required : Bool}
    {check : Nat → Check Unit} {u : Unit} (read : Nat → Option α) (good : α → Prop)
    (even : slot % 2 = 0) (given : Gives (t.visit h slot required (Verify.follow h check)) u)
    (reads : ∀ pos, Gives (check pos) () → ∃ a, read pos = some a ∧ good a) :
    ∃ found, refField? read h t.pos slot = some found ∧ (required = true → found.isSome) ∧
      ∀ a, found = some a → good a := by
  rcases given.visit checked even with ⟨pos, there, passed⟩ | ⟨missing, optional⟩
  · rcases passed.follow with ⟨target, reached, inner⟩
    rcases reads target inner with ⟨a, got, fine⟩
    refine ⟨some a, ?_, fun _ => rfl, ?_⟩
    · simp only [refField?, there, Option.bind_eq_bind, Option.bind_some, reached, got]
      rfl
    · intro b same
      cases same
      exact fine
  · refine ⟨none, ?_, ?_, ?_⟩
    · simp only [refField?, missing, Option.bind_eq_bind, Option.bind_some]
      rfl
    · intro needed
      rw [optional] at needed
      cases needed
    · intro b impossible
      cases impossible

theorem Gives.requiredField {t : Table} (checked : t.Checked h) {slot : Nat}
    {check : Nat → Check Unit} {u : Unit} {read : Nat → Option α} (even : slot % 2 = 0)
    (given : Gives (t.visit h slot true (Verify.follow h check)) u)
    (reads : ∀ pos, Gives (check pos) () → ∃ a, read pos = some a) :
    ∃ a, refField? read h t.pos slot = some (some a) := by
  obtain ⟨found, got, present, _⟩ := given.refField checked read (fun _ => True) even
    fun pos passed => by
      rcases reads pos passed with ⟨a, same⟩
      exact ⟨a, same, trivial⟩
  rcases Option.isSome_iff_exists.mp (present rfl) with ⟨a, rfl⟩
  exact ⟨a, got⟩

theorem Gives.bytesField {t : Table} (checked : t.Checked h) {slot : Nat} {u : Unit}
    (even : slot % 2 = 0)
    (given : Gives (t.visit h slot true (Verify.follow h (Verify.bytes h))) u) :
    ∃ content, bytesField? h t.pos slot = some (some content) :=
  given.requiredField checked even fun _ passed => passed.bytes

theorem Gives.textField {t : Table} (checked : t.Checked h) {slot : Nat} {u : Unit}
    (even : slot % 2 = 0)
    (given : Gives (t.visit h slot true (Verify.follow h (Verify.text h))) u) :
    ∃ text, textField? h t.pos slot = some (some text) :=
  given.requiredField checked even fun _ passed => passed.text

theorem Gives.ecc {pos : Nat} {u : Unit} (given : Gives (Verify.ecc h pos) u) :
    ∃ keys, readEcc? h pos = some keys ∧ keys.recipient.isSome ∧ keys.sender.isSome := by
  rcases given.bind with ⟨t, passed, given⟩
  rcases given.bind with ⟨_, curve, given⟩
  rcases given.bind with ⟨_, recipient, sender⟩
  rcases passed.table with ⟨rfl, checked⟩
  rcases curve.byteField checked (by decide) with ⟨value, one⟩
  rcases recipient.bytesField checked (by decide) with ⟨first, two⟩
  rcases sender.bytesField checked (by decide) with ⟨second, three⟩
  refine ⟨⟨value.toInt8, some first, some second⟩, ?_, rfl, rfl⟩
  simp only [readEcc?, one, two, three, Option.bind_eq_bind, Option.bind_some]
  rfl

theorem Gives.server {pos : Nat} {u : Unit} (given : Gives (Verify.server h pos) u) :
    ∃ s, readServer? h pos = some s ∧ s.recipient.isSome ∧ s.server.isSome ∧
      s.transaction.isSome := by
  rcases given.bind with ⟨t, passed, given⟩
  rcases given.bind with ⟨_, curve, given⟩
  rcases given.bind with ⟨_, recipient, given⟩
  rcases given.bind with ⟨_, server, transaction⟩
  rcases passed.table with ⟨rfl, checked⟩
  rcases curve.byteField checked (by decide) with ⟨value, one⟩
  rcases recipient.bytesField checked (by decide) with ⟨first, two⟩
  rcases server.textField checked (by decide) with ⟨second, three⟩
  rcases transaction.textField checked (by decide) with ⟨third, four⟩
  refine ⟨⟨value.toInt8, some first, some second, some third⟩, ?_, rfl, rfl, rfl⟩
  simp only [readServer?, one, two, three, four, Option.bind_eq_bind, Option.bind_some]
  rfl

theorem Gives.known {t : Table} {pos : Nat} {tag : UInt8} {u : Unit}
    (field : fieldAt? h t.pos slots.details = some (some pos))
    (given : Gives (if tag = 1 then Verify.follow h (Verify.ecc h) pos
      else if tag = 2 then Verify.follow h (Verify.server h) pos else Pure.pure ()) u) :
    ∃ found, readDetails? h t.pos tag = some found ∧ Details.Guarded tag found := by
  by_cases one : tag = 1
  · rw [if_pos one] at given
    rcases given.follow with ⟨target, reached, inner⟩
    rcases inner.ecc with ⟨keys, got, recipient, sender⟩
    subst one
    refine ⟨some (.ecc keys), ?_, .ecc recipient sender⟩
    simp only [readDetails?, if_true, refField?, field, Option.bind_eq_bind, Option.bind_some,
      reached, got]
    rfl
  · by_cases two : tag = 2
    · rw [if_neg one, if_pos two] at given
      rcases given.follow with ⟨target, reached, inner⟩
      rcases inner.server with ⟨s, got, recipient, server, transaction⟩
      subst two
      refine ⟨some (.server s), ?_, .server recipient server transaction⟩
      simp only [readDetails?, one, if_true, if_false, refField?, field, Option.bind_eq_bind,
        Option.bind_some, reached, got]
      rfl
    · exact ⟨none, by rw [readDetails?, if_neg one, if_neg two], .other one two⟩

theorem Gives.details {t : Table} (checked : t.Checked h) {u : Unit}
    (given : Gives (Verify.details h t) u) :
    ∃ type found, byteField? h t.pos slots.detailsType = some type ∧
      readDetails? h t.pos type = some found ∧ Details.Guarded type found := by
  rcases given.bind with ⟨value, valueField, given⟩
  rcases given.bind with ⟨type, typeField, given⟩
  have valueAt := valueField.field checked (by decide)
  have typeAt := typeField.field checked (by decide)
  cases type with
  | none =>
      cases value with
      | none =>
          refine ⟨0, none, ?_, rfl, .other (by decide) (by decide)⟩
          simp only [byteField?, typeAt, Option.bind_eq_bind, Option.bind_some]
          rfl
      | some pos =>
          rcases given with ⟨_, _, run⟩
          cases run
  | some place =>
      cases value with
      | none =>
          rcases given with ⟨_, _, run⟩
          cases run
      | some pos =>
          rcases given.bind with ⟨_, _, given⟩
          rcases given.bind with ⟨tag, read, given⟩
          rcases Gives.known valueAt given with ⟨found, got, guarded⟩
          refine ⟨tag, found, ?_, got, guarded⟩
          simp only [byteField?, typeAt, Option.bind_eq_bind, Option.bind_some, read.liftM]

theorem Gives.record {pos : Nat} {u : Unit} (given : Gives (Verify.record h pos) u) :
    ∃ r, readRecord? h pos = some r ∧ r.Guarded := by
  rcases given.bind with ⟨t, passed, given⟩
  rcases given.bind with ⟨_, details, given⟩
  rcases given.bind with ⟨_, key, method⟩
  rcases passed.table with ⟨rfl, checked⟩
  rcases details.details checked with ⟨type, found, one, two, guarded⟩
  rcases key.bytesField checked (by decide) with ⟨wrapped, three⟩
  rcases method.byteField checked (by decide) with ⟨value, four⟩
  refine ⟨⟨type, found, some wrapped, value.toInt8⟩, ?_, rfl, guarded⟩
  simp only [readRecord?, one, two, three, four, Option.bind_eq_bind, Option.bind_some]
  rfl

theorem Gives.eachRecord {count pos : Nat} {u : Unit}
    (given : Gives (Verify.eachRecord h count pos) u) :
    ∃ rs, readRecords? h count pos = some rs ∧ ∀ r ∈ rs, r.Guarded := by
  induction count generalizing pos u with
  | zero => exact ⟨[], rfl, by simp⟩
  | succ count ih =>
      rcases given.bind with ⟨_, first, given⟩
      rcases first.follow with ⟨target, reached, inner⟩
      rcases inner.record with ⟨r, read, guarded⟩
      rcases ih given with ⟨rs, rest, others⟩
      refine ⟨r :: rs, ?_, ?_⟩
      · simp only [readRecords?, reached, read, rest, Option.bind_eq_bind, Option.bind_some]
        rfl
      · intro s member
        rcases List.mem_cons.mp member with rfl | member
        · exact guarded
        · exact others s member

theorem Gives.header {pos : Nat} {u : Unit} (given : Gives (Verify.header h pos) u) :
    ∃ records value,
      refField? (fun pos => do readRecords? h (← u32At? h pos) (pos + 4)) h pos slots.records =
        some records ∧
      byteField? h pos slots.payloadMethod = some value ∧
        ∀ rs, records = some rs → ∀ r ∈ rs, r.Guarded := by
  rcases given.bind with ⟨t, passed, given⟩
  rcases given.bind with ⟨_, list, method⟩
  rcases passed.table with ⟨rfl, checked⟩
  rcases method.byteField checked (by decide) with ⟨value, one⟩
  obtain ⟨records, two, _, guarded⟩ := list.refField checked
    (fun pos => do readRecords? h (← u32At? h pos) (pos + 4)) (fun rs => ∀ r ∈ rs, r.Guarded)
    (by decide) (by
      intro pos inner
      rcases inner.bind with ⟨⟨start, count⟩, items, each⟩
      rcases items.elements with ⟨same, number, _⟩
      simp only at same number
      subst same
      rcases each.eachRecord with ⟨rs, read, others⟩
      exact ⟨rs, by simp only [number, Option.bind_eq_bind, Option.bind_some, read], others⟩)
  exact ⟨records, value, two, one, guarded⟩

end Verify

/-- What passes the check is read, and every record in it has its required parts. -/
theorem read?_of_verified {h : Bytes} (accepted : verified h = true) :
    ∃ header, read? h = some header ∧ ∀ r ∈ header.records.getD [], r.Guarded := by
  rcases Option.isSome_iff_exists.mp accepted with ⟨⟨u, v⟩, run⟩
  have given : Verify.Gives (Verify.follow h (Verify.header h) 0) u := ⟨_, v, run⟩
  rcases given.follow with ⟨root, reached, inner⟩
  rcases inner.header with ⟨records, value, one, two, guarded⟩
  refine ⟨⟨records, value.toInt8⟩, ?_, ?_⟩
  · simp only [read?, reached, Option.bind_eq_bind, Option.bind_some, two]
    simp only [Option.bind_eq_bind] at one
    rw [one]
    rfl
  · intro r member
    cases records with
    | none => cases member
    | some rs => exact guarded rs rfl r member

end SealedContainer.Header
