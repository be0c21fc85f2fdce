import SealedContainer.Bytes

/-!
The header of a container as a set of tables: the recipients' records and how the payload is
encrypted. A field of a table may be missing, and a byte that stands for a choice may be unknown.
-/

namespace SealedContainer

namespace Header

structure EccDetails where
  curve : Int8
  recipient : Option Bytes
  sender : Option Bytes
  deriving DecidableEq

structure ServerDetails where
  curve : Int8
  recipient : Option Bytes
  server : Option String
  transaction : Option String
  deriving DecidableEq

inductive Details where
  | ecc (details : EccDetails)
  | server (details : ServerDetails)
  deriving DecidableEq

structure Record where
  /-- Which kind of details there are: 1 for keys, 2 for a server. -/
  detailsType : UInt8
  details : Option Details
  wrappedKey : Option Bytes
  keyMethod : Int8
  deriving DecidableEq

def Record.ecc? (r : Record) : Option EccDetails :=
  match r.details with
  | some (.ecc details) => some details
  | _ => none

def Record.server? (r : Record) : Option ServerDetails :=
  match r.details with
  | some (.server details) => some details
  | _ => none

def detailsTypeName : UInt8 → Option String
  | 0 => some "NONE"
  | 1 => some "recipients_ECCPublicKey"
  | 2 => some "recipients_KeyServer"
  | _ => none

def keyMethodName (n : Int8) : Option String :=
  if n = 0 then some "UNKNOWN" else if n = 1 then some "XOR" else none

def payloadMethodName (n : Int8) : Option String :=
  if n = 0 then some "UNKNOWN" else if n = 1 then some "CHACHA20POLY1305" else none

def curveTagName (n : Int8) : Option String :=
  if n = 0 then some "UNKNOWN"
  else if n = 1 then some "secp384r1"
  else if n = 2 then some "secp256r1"
  else none

/-- Where each field is found in the directory of its table. -/
structure Slots where
  records : Nat := 4
  payloadMethod : Nat := 6
  detailsType : Nat := 4
  details : Nat := 6
  wrappedKey : Nat := 8
  keyMethod : Nat := 10
  curve : Nat := 4
  recipient : Nat := 6
  sender : Nat := 8
  server : Nat := 8
  transaction : Nat := 10

def slots : Slots := {}

end Header

structure Header where
  records : Option (List Header.Record)
  payloadMethod : Int8
  deriving DecidableEq

end SealedContainer
