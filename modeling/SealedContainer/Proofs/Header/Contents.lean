import Mathlib.Algebra.GroupWithZero.Nat
import SealedContainer.Proofs.Header.Table

/-!
What stands in a buffer for the keys of a record, for a record and for a header, with the places of
all parts, and that reading gives it.
-/

namespace SealedContainer.Header

variable {zeros : Bool} {h : Bytes} {start dir : Nat} {fields : List (Nat × Nat)}

/-- A field of one byte. A zero is not in its table, unless zeros are stored. -/
def ByteAt (zeros : Bool) (h : Bytes) (fields : List (Nat × Nat)) (slot : Nat) (value : UInt8) :
    Prop :=
  if value = 0 ∧ zeros = false then fields.lookup slot = none
  else ∃ place, fields.lookup slot = some place ∧ At h place [value]

def LinkAt (h : Bytes) (fields : List (Nat × Nat)) (slot target : Nat) : Prop :=
  ∃ place, fields.lookup slot = some place ∧ RefAt h place target

theorem ByteAt.mono {h' : Bytes} {slot : Nat} {value : UInt8}
    (at_ : ByteAt zeros h fields slot value) (grown : h <:+ h') :
    ByteAt zeros h' fields slot value := by
  unfold ByteAt at at_ ⊢
  split at at_
  next left => rwa [if_pos left]
  next written =>
    rw [if_neg written]
    obtain ⟨place, found, stored⟩ := at_
    exact ⟨place, found, stored.mono grown⟩

theorem ByteAt.isSome_lookup {slot : Nat} {value : UInt8} (at_ : ByteAt zeros h fields slot value) :
    (fields.lookup slot).isSome = !decide (value = 0 ∧ zeros = false) := by
  unfold ByteAt at at_
  split at at_
  next left => simp [at_, left]
  next written =>
    obtain ⟨place, found, _⟩ := at_
    simp only [found, Option.isSome_some, written, decide_false, Bool.not_false]

theorem ByteAt.stored {slot place : Nat} {value : UInt8} (at_ : ByteAt zeros h fields slot value)
    (found : fields.lookup slot = some place) : At h place [value] := by
  unfold ByteAt at at_
  split at at_
  next =>
    rw [at_] at found
    cases found
  next =>
    obtain ⟨place', found', stored⟩ := at_
    rw [found] at found'
    cases found'
    exact stored

theorem LinkAt.mono {h' : Bytes} {slot target : Nat} (at_ : LinkAt h fields slot target)
    (grown : h <:+ h') : LinkAt h' fields slot target := by
  rcases at_ with ⟨place, found, stored⟩
  exact ⟨place, found, stored.mono grown⟩

theorem LinkAt.reached {slot target : Nat} (at_ : LinkAt h fields slot target)
    (table : TableAt h start dir fields) : slot + 2 ≤ Layout.width fields := by
  obtain ⟨place, found, _⟩ := at_
  exact (table.lookup_inside found).1

theorem byteField?_of_at (table : TableAt h start dir fields) {slot : Nat} {value : UInt8}
    (slotted : Slotted slot) (at_ : ByteAt zeros h fields slot value) :
    byteField? h (h.length - start) slot = some value := by
  unfold ByteAt at at_
  simp only [byteField?, table.fieldAt?_eq slotted, Option.bind_eq_bind, Option.bind_some]
  split at at_
  next left =>
    rw [at_, left.1]
    rfl
  next =>
    obtain ⟨place, found, stored⟩ := at_
    rw [found]
    exact u8At?_of_at stored

theorem refField?_of_at {α : Type} {read : Nat → Option α} {a : α}
    (table : TableAt h start dir fields) {slot target : Nat} (slotted : Slotted slot)
    (at_ : LinkAt h fields slot target) (got : read (h.length - target) = some a) :
    refField? read h (h.length - start) slot = some (some a) := by
  rcases at_ with ⟨place, found, stored⟩
  simp only [refField?, table.fieldAt?_eq slotted, found, Option.map_some, Option.bind_eq_bind,
    Option.bind_some, followAt?_of_at stored, got]
  rfl

theorem refField?_of_missing {α : Type} {read : Nat → Option α}
    (table : TableAt h start dir fields) {slot : Nat} (slotted : Slotted slot)
    (missing : fields.lookup slot = none) :
    refField? read h (h.length - start) slot = some none := by
  simp only [refField?, table.fieldAt?_eq slotted, missing, Option.map_none, Option.bind_eq_bind,
    Option.bind_some]
  rfl

theorem bytesField?_of_at (table : TableAt h start dir fields) {slot target : Nat}
    {content : Bytes} (slotted : Slotted slot) (at_ : LinkAt h fields slot target)
    (stored : BytesAt h target content) :
    bytesField? h (h.length - start) slot = some (some content) :=
  refField?_of_at table slotted at_ (bytesAt?_of_at stored)

theorem textField?_of_at (table : TableAt h start dir fields) {slot target : Nat} {text : String}
    (slotted : Slotted slot) (at_ : LinkAt h fields slot target) (stored : TextAt h target text) :
    textField? h (h.length - start) slot = some (some text) := by
  apply refField?_of_at table slotted at_
  rw [bytesAt?_of_at stored.bytes, Option.bind_some, Bytes.toString?_ofString]

structure EccPlaces where
  table : Nat
  dir : Nat
  fields : List (Nat × Nat)
  recipient : Nat
  sender : Nat

structure EccAt (zeros : Bool) (h : Bytes) (p : EccPlaces) (curve : Int8)
    (recipient sender : Bytes) : Prop where
  table : TableAt h p.table p.dir p.fields
  narrow : Layout.width p.fields ≤ slots.sender + 2
  curve : ByteAt zeros h p.fields slots.curve curve.toUInt8
  toRecipient : LinkAt h p.fields slots.recipient p.recipient
  toSender : LinkAt h p.fields slots.sender p.sender
  recipient : BytesAt h p.recipient recipient
  sender : BytesAt h p.sender sender

structure ServerPlaces where
  table : Nat
  dir : Nat
  fields : List (Nat × Nat)
  recipient : Nat
  server : Nat
  transaction : Nat

structure ServerAt (zeros : Bool) (h : Bytes) (p : ServerPlaces) (curve : Int8)
    (recipient : Bytes) (server transaction : String) : Prop where
  table : TableAt h p.table p.dir p.fields
  curve : ByteAt zeros h p.fields slots.curve curve.toUInt8
  toRecipient : LinkAt h p.fields slots.recipient p.recipient
  toServer : LinkAt h p.fields slots.server p.server
  toTransaction : LinkAt h p.fields slots.transaction p.transaction
  recipient : BytesAt h p.recipient recipient
  server : TextAt h p.server server
  transaction : TextAt h p.transaction transaction

theorem EccAt.mono {h' : Bytes} {p : EccPlaces} {curve : Int8} {recipient sender : Bytes}
    (at_ : EccAt zeros h p curve recipient sender) (grown : h <:+ h') :
    EccAt zeros h' p curve recipient sender :=
  ⟨at_.table.mono grown, at_.narrow, at_.curve.mono grown, at_.toRecipient.mono grown,
    at_.toSender.mono grown, at_.recipient.mono grown, at_.sender.mono grown⟩

theorem ServerAt.mono {h' : Bytes} {p : ServerPlaces} {curve : Int8} {recipient : Bytes}
    {server transaction : String} (at_ : ServerAt zeros h p curve recipient server transaction)
    (grown : h <:+ h') : ServerAt zeros h' p curve recipient server transaction :=
  ⟨at_.table.mono grown, at_.curve.mono grown, at_.toRecipient.mono grown, at_.toServer.mono grown,
    at_.toTransaction.mono grown, at_.recipient.mono grown, at_.server.mono grown,
    at_.transaction.mono grown⟩

theorem readEcc?_of_at {p : EccPlaces} {curve : Int8} {recipient sender : Bytes}
    (at_ : EccAt zeros h p curve recipient sender) :
    readEcc? h (h.length - p.table) = some ⟨curve, some recipient, some sender⟩ := by
  simp only [readEcc?, byteField?_of_at at_.table (by decide) at_.curve,
    bytesField?_of_at at_.table (by decide) at_.toRecipient at_.recipient,
    bytesField?_of_at at_.table (by decide) at_.toSender at_.sender, Option.bind_eq_bind,
    Option.bind_some]
  rfl

theorem readServer?_of_at {p : ServerPlaces} {curve : Int8} {recipient : Bytes}
    {server transaction : String} (at_ : ServerAt zeros h p curve recipient server transaction) :
    readServer? h (h.length - p.table) =
      some ⟨curve, some recipient, some server, some transaction⟩ := by
  simp only [readServer?, byteField?_of_at at_.table (by decide) at_.curve,
    bytesField?_of_at at_.table (by decide) at_.toRecipient at_.recipient,
    textField?_of_at at_.table (by decide) at_.toServer at_.server,
    textField?_of_at at_.table (by decide) at_.toTransaction at_.transaction, Option.bind_eq_bind,
    Option.bind_some]
  rfl

/-- The bytes that details take, at most: in a buffer, and in what is counted when it is checked. -/
def Details.weight : Details → Nat
  | .ecc d => 100 + (d.recipient.getD []).length + (d.sender.getD []).length
  | .server d => 100 + (d.recipient.getD []).length + (Bytes.ofString (d.server.getD "")).length +
      (Bytes.ofString (d.transaction.getD "")).length

inductive DetailsAt (zeros : Bool) (h : Bytes) : Nat → Details → Prop where
  | ecc {p : EccPlaces} {curve : Int8} {recipient sender : Bytes}
      (at_ : EccAt zeros h p curve recipient sender) :
      DetailsAt zeros h p.table (.ecc ⟨curve, some recipient, some sender⟩)
  | server {p : ServerPlaces} {curve : Int8} {recipient : Bytes} {server transaction : String}
      (at_ : ServerAt zeros h p curve recipient server transaction) :
      DetailsAt zeros h p.table (.server ⟨curve, some recipient, some server, some transaction⟩)

theorem DetailsAt.mono {h' : Bytes} {place : Nat} {d : Details} (at_ : DetailsAt zeros h place d)
    (grown : h <:+ h') : DetailsAt zeros h' place d := by
  cases at_ with
  | ecc at_ => exact .ecc (at_.mono grown)
  | server at_ => exact .server (at_.mono grown)

structure RecordPlaces where
  table : Nat
  dir : Nat
  fields : List (Nat × Nat)
  key : Nat
  details : Option Nat

/-- The type is written if and only if there are details. -/
def Record.Paired (zeros : Bool) (r : Record) : Prop :=
  r.details.isSome = !decide (r.detailsType = 0 ∧ zeros = false)

/-- Details of a known type are of the kind that the type says. -/
def Record.Fitting (r : Record) : Prop :=
  (r.detailsType = 1 → ∀ d, r.details = some d → r.ecc?.isSome) ∧
    (r.detailsType = 2 → ∀ d, r.details = some d → r.server?.isSome)

/-- What is read of a record: details of an unknown type are passed over. -/
def Record.seen (r : Record) : Record :=
  { r with details := if r.detailsType = 1 ∨ r.detailsType = 2 then r.details else none }

def Record.weight (r : Record) : Nat :=
  100 + (r.details.map Details.weight).getD 0 + (r.wrappedKey.getD []).length

structure RecordAt (zeros : Bool) (h : Bytes) (p : RecordPlaces) (r : Record) : Prop where
  table : TableAt h p.table p.dir p.fields
  type : ByteAt zeros h p.fields slots.detailsType r.detailsType
  method : ByteAt zeros h p.fields slots.keyMethod r.keyMethod.toUInt8
  toKey : LinkAt h p.fields slots.wrappedKey p.key
  key : ∃ content, r.wrappedKey = some content ∧ BytesAt h p.key content
  details : match p.details, r.details with
    | some place, some d => LinkAt h p.fields slots.details place ∧ DetailsAt zeros h place d
    | none, none => p.fields.lookup slots.details = none
    | _, _ => False

theorem RecordAt.mono {h' : Bytes} {p : RecordPlaces} {r : Record} (at_ : RecordAt zeros h p r)
    (grown : h <:+ h') : RecordAt zeros h' p r := by
  rcases at_.key with ⟨content, same, stored⟩
  refine ⟨at_.table.mono grown, at_.type.mono grown, at_.method.mono grown, at_.toKey.mono grown,
    ⟨content, same, stored.mono grown⟩, ?_⟩
  have details := at_.details
  split
  · rename_i place d first second
    rw [first, second] at details
    exact ⟨details.1.mono grown, details.2.mono grown⟩
  · rename_i first second
    rwa [first, second] at details
  · rename_i first second
    split at details
    · rename_i place d here there
      exact first place d here there
    · rename_i here there
      exact second here there
    · exact details

theorem readDetails?_of_at {p : RecordPlaces} {r : Record} (at_ : RecordAt zeros h p r)
    (fitting : r.Fitting) :
    readDetails? h (h.length - p.table) r.detailsType = some r.seen.details := by
  have details := at_.details
  simp only [readDetails?, Record.seen]
  split at details
  · rename_i place d here there
    rcases details with ⟨link, stored⟩
    rw [there]
    by_cases one : r.detailsType = 1
    · have kind := fitting.1 one d there
      cases stored with
      | ecc keys =>
          simp only [one, if_true, true_or, refField?_of_at at_.table (by decide) link
            (readEcc?_of_at keys)]
          rfl
      | server => simp [Record.ecc?, there] at kind
    · by_cases two : r.detailsType = 2
      · have kind := fitting.2 two d there
        cases stored with
        | ecc => simp [Record.server?, there] at kind
        | server parts =>
            simp only [two, or_true, if_true, refField?_of_at at_.table (by decide) link
              (readServer?_of_at parts)]
            rfl
      · simp [one, two]
  · rename_i here there
    rw [there]
    by_cases one : r.detailsType = 1
    · simp only [one, if_true, refField?_of_missing at_.table (by decide) details]
      rfl
    · by_cases two : r.detailsType = 2
      · simp only [two, or_true, if_true, refField?_of_missing at_.table (by decide) details]
        rfl
      · simp [one, two]
  · exact details.elim

theorem readRecord?_of_at {p : RecordPlaces} {r : Record} (at_ : RecordAt zeros h p r)
    (fitting : r.Fitting) : readRecord? h (h.length - p.table) = some r.seen := by
  rcases at_.key with ⟨content, same, stored⟩
  simp only [readRecord?, byteField?_of_at at_.table (by decide) at_.type,
    readDetails?_of_at at_ fitting, bytesField?_of_at at_.table (by decide) at_.toKey stored,
    byteField?_of_at at_.table (by decide) at_.method, Option.bind_eq_bind, Option.bind_some]
  rw [← same]
  rfl

inductive RecordsAt (zeros : Bool) (h : Bytes) :
    Nat → List RecordPlaces → List Record → Prop where
  | nil {place : Nat} : RecordsAt zeros h place [] []
  | cons {place : Nat} {p : RecordPlaces} {r : Record} {ps : List RecordPlaces} {rs : List Record}
      (first : RefAt h place p.table) (record : RecordAt zeros h p r)
      (rest : RecordsAt zeros h (place - 4) ps rs) : RecordsAt zeros h place (p :: ps) (r :: rs)

theorem RefAt.next {place target : Nat} (at_ : RefAt h place target) :
    h.length - place + 4 = h.length - (place - 4) := by
  have low := at_.stored.length_le
  have high := at_.stored.place_le
  rw [Bytes.length_ofNatLE] at low
  omega

theorem readRecords?_of_at {place : Nat} {ps : List RecordPlaces} {rs : List Record}
    (at_ : RecordsAt zeros h place ps rs) (fitting : ∀ r ∈ rs, r.Fitting) :
    readRecords? h rs.length (h.length - place) = some (rs.map Record.seen) := by
  induction at_ with
  | nil => rfl
  | cons first record rest ih =>
      have later := ih fun r member => fitting r (List.mem_cons_of_mem _ member)
      simp only [List.length_cons, readRecords?, followAt?_of_at first, first.next, later,
        readRecord?_of_at record (fitting _ (List.mem_cons_self ..)), Option.bind_eq_bind,
        Option.bind_some]
      rfl

def weight (header : Header) : Nat :=
  100 + 8 * (header.records.getD []).length + ((header.records.getD []).map Record.weight).sum

/-- The list of the records, of which the first are at known places. -/
structure ListAt (zeros : Bool) (h : Bytes) (place : Nat) (known : List RecordPlaces)
    (rs : List Record) : Prop where
  count : At h place (Bytes.ofNatLE 4 rs.length)
  aligned : place % 4 = 0
  fits : rs.length < 2 ^ 32
  room : 4 + 4 * rs.length ≤ place
  first : known.length ≤ rs.length
  records : RecordsAt zeros h (place - 4) known (rs.take known.length)

theorem ListAt.number {place : Nat} {known : List RecordPlaces} {rs : List Record}
    (at_ : ListAt zeros h place known rs) : numberAt? h 4 (h.length - place) = some rs.length :=
  numberAt?_of_at at_.count at_.fits

theorem ListAt.behind {place : Nat} {known : List RecordPlaces} {rs : List Record}
    (at_ : ListAt zeros h place known rs) : h.length - place + 4 = h.length - (place - 4) := by
  have low := at_.room
  have high := at_.count.place_le
  omega

structure HeaderPlaces where
  table : Nat
  dir : Nat
  fields : List (Nat × Nat)
  list : Option Nat
  records : List RecordPlaces

structure HeaderAt (zeros : Bool) (h : Bytes) (p : HeaderPlaces) (header : Header) : Prop where
  whole : h.length % 4 = 0
  root : RefAt h h.length p.table
  table : TableAt h p.table p.dir p.fields
  narrow : Layout.width p.fields ≤ slots.payloadMethod + 2
  method : ByteAt zeros h p.fields slots.payloadMethod header.payloadMethod.toUInt8
  records : match p.list, header.records with
    | some place, some rs =>
        LinkAt h p.fields slots.records place ∧ ListAt zeros h place p.records rs
    | none, none => p.fields.lookup slots.records = none
    | _, _ => False

def HeaderPlaces.Complete (p : HeaderPlaces) (header : Header) : Prop :=
  ∀ rs, header.records = some rs → p.records.length = rs.length

def seen (header : Header) : Header :=
  { header with records := header.records.map (·.map Record.seen) }

theorem rootAt?_of_at {p : HeaderPlaces} {header : Header} (at_ : HeaderAt zeros h p header) :
    followAt? h 0 = some (h.length - p.table) := by
  have first := followAt?_of_at at_.root
  rwa [Nat.sub_self] at first

theorem read?_of_at {p : HeaderPlaces} {header : Header} (at_ : HeaderAt zeros h p header)
    (complete : p.Complete header)
    (fitting : ∀ rs, header.records = some rs → ∀ r ∈ rs, r.Fitting) :
    read? h = some header.seen := by
  have method := byteField?_of_at at_.table (by decide) at_.method
  have records := at_.records
  simp only [read?, rootAt?_of_at at_, Option.bind_eq_bind, Option.bind_some, method]
  split at records
  · rename_i place rs here there
    rcases records with ⟨link, list⟩
    have number : u32At? h (h.length - place) = some rs.length := list.number
    have stored := list.records
    rw [complete rs there, List.take_length] at stored
    rw [refField?_of_at (a := rs.map Record.seen) at_.table (by decide) link (by
      simp only [number, Option.bind_some, list.behind]
      exact readRecords?_of_at stored (fitting rs there))]
    simp only [Option.bind_some, seen, there]
    rfl
  · rename_i here there
    rw [refField?_of_missing at_.table (by decide) records]
    simp only [Option.bind_some, seen, there]
    rfl
  · exact records.elim

end SealedContainer.Header
