import SealedContainer.Bytes
import SealedContainer.Text

/-!
Object identifiers, kept in their encoded form: the first two arcs share a byte, every later arc
is written in base 128 with the top bit set on all bytes but its last.
-/

namespace SealedContainer

structure Oid where
  encoded : Bytes
  deriving DecidableEq, Repr

namespace Oid

def maxLength : Nat := 39

def arcFront (fuel n : Nat) : Bytes :=
  match fuel with
  | 0 => []
  | fuel + 1 => if n = 0 then [] else arcFront fuel (n / 128) ++ [UInt8.ofNat (128 + n % 128)]

def arcBytes (n : Nat) : Bytes := arcFront (Nat.log2 n + 1) (n / 128) ++ [UInt8.ofNat (n % 128)]

/-- The identifier with these arcs: at least three, the first two below 3 and 40. -/
def ofArcs? : List Nat → Option Oid
  | first :: second :: rest =>
    let encoded := UInt8.ofNat (40 * first + second) :: rest.flatMap arcBytes
    if first ≤ 2 ∧ second ≤ 39 ∧ rest ≠ [] ∧ encoded.length ≤ maxLength then some ⟨encoded⟩
    else none
  | _ => none

/-- The arcs after the first two, if each ends and fits 32 bits. The fifth byte of an arc may only
use its low four bits, and what the first byte then shifts beyond 32 bits is lost. -/
def tailArcs (sum count : Nat) : Bytes → Option (List Nat)
  | [] => if count = 0 then some [] else none
  | b :: rest =>
    let n := (128 * sum + b.toNat % 128) % 2 ^ 32
    if 4 ≤ count ∧ 16 ≤ b.toNat then none
    else if b.toNat < 128 then (tailArcs 0 0 rest).map (n :: ·)
    else tailArcs n (count + 1) rest

def arcs? (o : Oid) : Option (List Nat) :=
  match o.encoded with
  | [] => none
  | b :: rest =>
    if b.toNat < 120 then (tailArcs 0 0 rest).map fun tail => b.toNat / 40 :: b.toNat % 40 :: tail
    else none

def ofBytes? (encoded : Bytes) : Option Oid :=
  if 3 ≤ encoded.length ∧ encoded.length ≤ maxLength ∧ (arcs? ⟨encoded⟩).isSome then some ⟨encoded⟩
  else none

def text (o : Oid) : String := ".".intercalate ((o.arcs?.getD []).map toString)

def parseArcs (current : Nat) : List Char → Option (List Nat)
  | [] => some [current]
  | ['.'] => none
  | '.' :: rest => (parseArcs 0 rest).map (current :: ·)
  | c :: rest =>
    if c.isDigit then
      let next := 10 * current + Decimal.digitValue c
      if next < 2 ^ 32 then parseArcs next rest else none
    else none

def parse? (s : String) : Option Oid :=
  match s.toList with
  | [] => none
  | c :: rest => if c.isDigit then (parseArcs 0 (c :: rest)).bind ofArcs? else none

end Oid

end SealedContainer
