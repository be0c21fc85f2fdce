import SealedContainer.Header

/-!
Writing a header. The buffer grows at its front, so what is referred to is written before the
reference, and places are counted from the end. Fields that have their default are left out, and
tables with equal directories share one.
-/

namespace SealedContainer.Header

/-- A buffer with the directories in it, each with the place where it starts. -/
structure Layout where
  bytes : Bytes
  directories : List (Bytes × Nat)
  /-- Whether a byte of zero is written too, though it is what a missing field stands for. -/
  storesZeros : Bool

namespace Layout

def empty (storesZeros : Bool) : Layout := ⟨[], [], storesZeros⟩

def size (b : Layout) : Nat := b.bytes.length

def put (b : Layout) (bytes : Bytes) : Layout := { b with bytes := bytes ++ b.bytes }

/-- Zeros, so that after `more` bytes the size is a multiple of `alignment`. -/
def align (b : Layout) (alignment more : Nat) : Layout :=
  b.put (List.replicate ((alignment - (b.size + more) % alignment) % alignment) 0)

def putWord (b : Layout) (n : Nat) : Layout := (b.align 4 4).put (Bytes.ofNatLE 4 n)

def putRef (b : Layout) (target : Nat) : Layout :=
  let b := b.align 4 4
  b.put (Bytes.ofNatLE 4 (b.size + 4 - target))

def putBytes (b : Layout) (bytes : Bytes) : Layout × Nat :=
  let b := ((b.align 4 bytes.length).put bytes).putWord bytes.length
  (b, b.size)

def putText (b : Layout) (text : String) : Layout × Nat :=
  let bytes := Bytes.ofString text
  let b := (((b.align 4 (bytes.length + 1)).put [0]).put bytes).putWord bytes.length
  (b, b.size)

def putRefs (b : Layout) (targets : List Nat) : Layout × Nat :=
  let b := targets.reverse.foldl putRef (b.align 4 (4 * targets.length))
  let b := b.putWord targets.length
  (b, b.size)

/-- A field of a table. A byte of zero is left out, unless the buffer stores zeros. -/
inductive Field where
  | byte (value : UInt8)
  | ref (target : Nat)

def putField (state : Layout × List (Nat × Nat)) (field : Nat × Field) :
    Layout × List (Nat × Nat) :=
  let (b, places) := state
  match field with
  | (slot, .byte value) =>
    if value = 0 ∧ b.storesZeros = false then state
    else
      let b := b.put [value]
      (b, (slot, b.size) :: places)
  | (slot, .ref target) =>
    let b := b.putRef target
    (b, (slot, b.size) :: places)

def distance (places : List (Nat × Nat)) (start slot : Nat) : Nat :=
  match places.lookup slot with
  | some place => start - place
  | none => 0

def width (places : List (Nat × Nat)) : Nat := places.foldl (fun n field => max n (field.1 + 2)) 4

def directory (places : List (Nat × Nat)) (start size : Nat) : Bytes :=
  Bytes.ofNatLE 2 (width places) ++ Bytes.ofNatLE 2 size ++
    (List.range ((width places - 4) / 2)).flatMap fun i =>
      Bytes.ofNatLE 2 (distance places start (4 + 2 * i))

/-- Starts a table with the distance back to its directory, which stands in front of it unless there
is an equal one already. -/
def putStart (b : Layout) (entry : Bytes) : Layout :=
  match b.directories.lookup entry with
  | some place => b.put (Bytes.ofNatLE 4 (2 ^ 32 + place - (b.size + 4)))
  | none =>
    let b := (b.put (Bytes.ofNatLE 4 entry.length)).put entry
    { b with directories := (entry, b.size) :: b.directories }

def putTable (b : Layout) (fields : List (Nat × Field)) : Layout × Nat :=
  let before := b.size
  let (b, places) := fields.foldl putField (b, [])
  let b := b.align 4 4
  let start := b.size + 4
  (b.putStart (directory places start (start - before)), start)

def finish (b : Layout) (root : Nat) : Bytes := (b.putRef root).bytes

inductive KeyOrder where
  | curveFirst
  | curveLast

def eccFields (order : KeyOrder) (d : EccDetails) (recipient sender : Nat) : List (Nat × Field) :=
  let fields := [(slots.curve, .byte d.curve.toUInt8), (slots.recipient, .ref recipient),
    (slots.sender, .ref sender)]
  match order with
  | .curveFirst => fields
  | .curveLast => fields.reverse

def putEcc? (order : KeyOrder) (b : Layout) (d : EccDetails) : Option (Layout × Nat) := do
  let (b, recipient) := b.putBytes (← d.recipient)
  let (b, sender) := b.putBytes (← d.sender)
  return b.putTable (eccFields order d recipient sender)

def serverFields (d : ServerDetails) (recipient server transaction : Nat) : List (Nat × Field) :=
  [(slots.curve, .byte d.curve.toUInt8), (slots.recipient, .ref recipient),
    (slots.server, .ref server), (slots.transaction, .ref transaction)]

def putServer? (b : Layout) (d : ServerDetails) : Option (Layout × Nat) := do
  let (b, recipient) := b.putBytes (← d.recipient)
  let (b, server) := b.putText (← d.server)
  let (b, transaction) := b.putText (← d.transaction)
  return b.putTable (serverFields d recipient server transaction)

def putDetails? (order : KeyOrder) (b : Layout) : Details → Option (Layout × Nat)
  | .ecc d => putEcc? order b d
  | .server d => putServer? b d

def putOptional? (order : KeyOrder) (b : Layout) : Option Details → Option (Layout × Option Nat)
  | some d => do
    let (b, place) ← putDetails? order b d
    return (b, some place)
  | none => some (b, none)

def recordFields (r : Record) (details : Option Nat) (key : Nat) : List (Nat × Field) :=
  (slots.detailsType, .byte r.detailsType) ::
    ((details.map fun place => (slots.details, .ref place)).toList ++
      [(slots.wrappedKey, .ref key), (slots.keyMethod, .byte r.keyMethod.toUInt8)])

def putRecord? (order : KeyOrder) (b : Layout) (r : Record) : Option (Layout × Nat) := do
  let (b, details) ← putOptional? order b r.details
  let (b, key) := b.putBytes (← r.wrappedKey)
  return b.putTable (recordFields r details key)

/-- Writes the records in turn. The places come out in the order of the records. -/
def putRecords? (order : KeyOrder) (b : Layout) : List Record → Option (Layout × List Nat)
  | [] => some (b, [])
  | r :: rest => do
    let (b, place) ← putRecord? order b r
    let (b, places) ← putRecords? order b rest
    return (b, place :: places)

def putList? (order : KeyOrder) (b : Layout) :
    Option (List Record) → Option (Layout × Option Nat)
  | some records => do
    let (b, places) ← putRecords? order b records
    let (b, place) := b.putRefs places
    return (b, some place)
  | none => some (b, none)

def headerFields (header : Header) (records : Option Nat) : List (Nat × Field) :=
  (records.map fun place => (slots.records, .ref place)).toList ++
    [(slots.payloadMethod, .byte header.payloadMethod.toUInt8)]

end Layout

def write? (storesZeros : Bool) (order : Layout.KeyOrder) (header : Header) : Option Bytes := do
  let (b, records) ← Layout.putList? order (.empty storesZeros) header.records
  let (b, root) := b.putTable (Layout.headerFields header records)
  return b.finish root

def toBytes? (order : Layout.KeyOrder) (header : Header) : Option Bytes := write? false order header

end SealedContainer.Header
