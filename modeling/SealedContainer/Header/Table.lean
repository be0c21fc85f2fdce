import SealedContainer.Header

/-!
Reading the tables of a header.

A table starts with the signed distance back to its directory, which gives its own size, the
size of the table, and for each field the distance from the start of the table, zero if the field
is missing. Bytes, texts, tables and lists are referred to by the distance forward from the
reference. Nothing is checked here, so a read outside the buffer gives `none`.
-/

namespace SealedContainer.Header

def u8At? (h : Bytes) (pos : Nat) : Option UInt8 := h[pos]?

def numberAt? (h : Bytes) (width pos : Nat) : Option Nat :=
  let field := (h.drop pos).take width
  if field.length = width then some (Bytes.toNatLE field) else none

def u16At? (h : Bytes) (pos : Nat) : Option Nat := numberAt? h 2 pos

def u32At? (h : Bytes) (pos : Nat) : Option Nat := numberAt? h 4 pos

def directoryAt? (h : Bytes) (pos : Nat) : Option Nat := do
  let back := Int32.ofNat (← u32At? h pos)
  let place := (pos : Int) - back.toInt
  if place < 0 then none else some place.toNat

/-- The position of a field, `none` inside if the table does not have it. -/
def fieldAt? (h : Bytes) (table slot : Nat) : Option (Option Nat) := do
  let directory ← directoryAt? h table
  if slot + 2 ≤ (← u16At? h directory) then
    let distance ← u16At? h (directory + slot)
    return if distance = 0 then none else some (table + distance)
  else return none

def byteField? (h : Bytes) (table slot : Nat) : Option UInt8 := do
  match ← fieldAt? h table slot with
  | some pos => u8At? h pos
  | none => return 0

def followAt? (h : Bytes) (pos : Nat) : Option Nat := do return pos + (← u32At? h pos)

def bytesAt? (h : Bytes) (pos : Nat) : Option Bytes := do
  let count ← u32At? h pos
  let content := (h.drop (pos + 4)).take count
  if content.length = count then some content else none

def refField? {α : Type} (read : Nat → Option α) (h : Bytes) (table slot : Nat) :
    Option (Option α) := do
  match ← fieldAt? h table slot with
  | some pos => some <$> read (← followAt? h pos)
  | none => return none

def bytesField? (h : Bytes) (table slot : Nat) : Option (Option Bytes) :=
  refField? (bytesAt? h) h table slot

def textField? (h : Bytes) (table slot : Nat) : Option (Option String) :=
  refField? (fun pos => (bytesAt? h pos).bind Bytes.toString?) h table slot

def readEcc? (h : Bytes) (table : Nat) : Option EccDetails := do
  return ⟨(← byteField? h table slots.curve).toInt8, ← bytesField? h table slots.recipient,
    ← bytesField? h table slots.sender⟩

def readServer? (h : Bytes) (table : Nat) : Option ServerDetails := do
  return ⟨(← byteField? h table slots.curve).toInt8, ← bytesField? h table slots.recipient,
    ← textField? h table slots.server, ← textField? h table slots.transaction⟩

/-- The details of a record, as its type says. Those of an unknown type are not read. -/
def readDetails? (h : Bytes) (table : Nat) (type : UInt8) : Option (Option Details) :=
  if type = 1 then (Option.map .ecc) <$> refField? (readEcc? h) h table slots.details
  else if type = 2 then (Option.map .server) <$> refField? (readServer? h) h table slots.details
  else some none

def readRecord? (h : Bytes) (table : Nat) : Option Record := do
  let type ← byteField? h table slots.detailsType
  return ⟨type, ← readDetails? h table type, ← bytesField? h table slots.wrappedKey,
    (← byteField? h table slots.keyMethod).toInt8⟩

def readRecords? (h : Bytes) : (count pos : Nat) → Option (List Record)
  | 0, _ => some []
  | count + 1, pos => do
    let record ← readRecord? h (← followAt? h pos)
    return record :: (← readRecords? h count (pos + 4))

def read? (h : Bytes) : Option Header := do
  let table ← followAt? h 0
  let records ← refField? (fun pos => do readRecords? h (← u32At? h pos) (pos + 4)) h table
    slots.records
  return ⟨records, (← byteField? h table slots.payloadMethod).toInt8⟩

end SealedContainer.Header
