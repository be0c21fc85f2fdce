import SealedContainer.Header.Table

/-!
The check that a buffer has to pass before its tables are read: every number is aligned, every
read stays inside, texts are well formed and end in a zero byte, and required fields are there.

The work is bounded: all that is visited is counted, with what is visited twice counted twice.
-/

namespace SealedContainer.Header.Verify

structure Visited where
  size : Nat
  tables : Nat

def maxSize : Nat := 2 ^ 31

def maxTables : Nat := 1000000

abbrev Check := StateT Visited Option

def require (p : Prop) [Decidable p] : Check Unit := if p then pure () else failure

def countBytes (size : Nat) : Check Unit := do
  modify fun v => { v with size := v.size + size }
  require ((← get).size ≤ maxSize)

def countTable : Check Unit := do
  modify fun v => { v with tables := v.tables + 1 }
  require ((← get).tables ≤ maxTables)

def range (h : Bytes) (pos size : Nat) : Check Unit := do
  require (pos + size ≤ h.length)
  countBytes size

/-- A number of `width` bytes, which stands at a multiple of its width. -/
def number (h : Bytes) (width pos : Nat) : Check Nat := do
  require (pos % width = 0)
  range h pos width
  liftM (numberAt? h width pos)

structure Table where
  pos : Nat
  directory : Nat
  size : Nat

def table (h : Bytes) (pos : Nat) : Check Table := do
  let _ ← number h 4 pos
  let directory ← liftM (directoryAt? h pos)
  require (directory < h.length)
  let size ← number h 2 directory
  require ((directory + size) % 2 = 0)
  range h directory size
  countTable
  return ⟨pos, directory, size⟩

def Table.field (h : Bytes) (t : Table) (slot : Nat) : Check (Option Nat) := do
  if slot < t.size then
    let distance ← number h 2 (t.directory + slot)
    return if distance = 0 then none else some (t.pos + distance)
  else return none

def Table.visit (h : Bytes) (t : Table) (slot : Nat) (required : Bool)
    (check : Nat → Check Unit) : Check Unit := do
  match ← t.field h slot with
  | some pos => check pos
  | none => require (required = false)

def byte (h : Bytes) (pos : Nat) : Check Unit := do let _ ← number h 1 pos

def follow (h : Bytes) (check : Nat → Check Unit) (pos : Nat) : Check Unit := do
  check (pos + (← number h 4 pos))

def elements (h : Bytes) (width pos : Nat) : Check (Nat × Nat) := do
  let count ← number h 4 pos
  require ((pos + 4) % width = 0)
  range h (pos + 4) (count * width)
  return (pos + 4, count)

def bytes (h : Bytes) (pos : Nat) : Check Unit := do let _ ← elements h 1 pos

def text (h : Bytes) (pos : Nat) : Check Unit := do
  let (start, count) ← elements h 1 pos
  require ((Bytes.toString? ((h.drop start).take count)).isSome)
  require (h[start + count]? = some 0)

def ecc (h : Bytes) (pos : Nat) : Check Unit := do
  let t ← table h pos
  t.visit h slots.curve false (byte h)
  t.visit h slots.recipient true (follow h (bytes h))
  t.visit h slots.sender true (follow h (bytes h))

def server (h : Bytes) (pos : Nat) : Check Unit := do
  let t ← table h pos
  t.visit h slots.curve false (byte h)
  t.visit h slots.recipient true (follow h (bytes h))
  t.visit h slots.server true (follow h (text h))
  t.visit h slots.transaction true (follow h (text h))

/-- Checks the details as their type says. Type and details are there together or not at all. -/
def details (h : Bytes) (t : Table) : Check Unit := do
  let value ← t.field h slots.details
  let type ← t.field h slots.detailsType
  match type, value with
  | none, none => return
  | some type, some value =>
    byte h type
    let tag ← liftM (u8At? h type)
    if tag = 1 then follow h (ecc h) value
    else if tag = 2 then follow h (server h) value
  | _, _ => failure

def record (h : Bytes) (pos : Nat) : Check Unit := do
  let t ← table h pos
  details h t
  t.visit h slots.wrappedKey true (follow h (bytes h))
  t.visit h slots.keyMethod false (byte h)

def eachRecord (h : Bytes) : (count pos : Nat) → Check Unit
  | 0, _ => pure ()
  | count + 1, pos => do
    follow h (record h) pos
    eachRecord h count (pos + 4)

def records (h : Bytes) (pos : Nat) : Check Unit := do
  let (start, count) ← elements h 4 pos
  eachRecord h count start

def header (h : Bytes) (pos : Nat) : Check Unit := do
  let t ← table h pos
  t.visit h slots.records false (follow h (records h))
  t.visit h slots.payloadMethod false (byte h)

end Verify

def verified (h : Bytes) : Bool := ((Verify.follow h (Verify.header h) 0).run ⟨0, 0⟩).isSome

def ofBytes? (h : Bytes) : Option Header := if verified h then read? h else none

end SealedContainer.Header
