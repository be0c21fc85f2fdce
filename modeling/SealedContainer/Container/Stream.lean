import SealedContainer.Bytes

/-!
Streams of bytes as they come in and go out. A stream is what its reads will give, or its writes
will take, in turn; a failure ends it.
-/

namespace SealedContainer

inductive FailureKind where
  | unexpectedEnd
  | other
  deriving DecidableEq, Repr

structure StreamFailure where
  text : String
  kind : FailureKind
  deriving DecidableEq, Repr

instance : Coe String StreamFailure := ⟨fun text => ⟨text, .other⟩⟩

/-- What reading gives next. An early end is no failure, though a failure may say that it is one. A
read that is interrupted is tried again, so that it counts as a chunk without bytes. -/
inductive Delivery where
  | chunk (bytes : Bytes)
  | fail (failure : StreamFailure)
  deriving DecidableEq, Repr

/-- A stream to read from. It ends after its last delivery. -/
abbrev Source := List Delivery

namespace Source

def ofBytes (bytes : Bytes) : Source := [.chunk bytes]

/-- The bytes up to the first failure. -/
def bytes : Source → Bytes
  | [] => []
  | .chunk b :: rest => b ++ bytes rest
  | .fail _ :: _ => []

/-- Up to `count` bytes, fewer only if the stream ends, and what is left. Nothing is read beyond
the bytes that are asked for. -/
def read (count : Nat) : Source → Except StreamFailure (Bytes × Source)
  | [] => .ok ([], [])
  | d :: rest =>
    if count = 0 then .ok ([], d :: rest)
    else
      match d with
      | .fail failure => .error failure
      | .chunk b =>
        if count < b.length then .ok (b.take count, .chunk (b.drop count) :: rest)
        else
          match read (count - b.length) rest with
          | .ok (more, left) => .ok (b ++ more, left)
          | .error failure => .error failure

def readAll : Source → Except StreamFailure Bytes
  | [] => .ok []
  | .chunk b :: rest => (readAll rest).map (b ++ ·)
  | .fail failure :: _ => .error failure

end Source

/-- What writing meets next: room for some bytes, or a failure with its text. -/
inductive Uptake where
  | room (count : Nat)
  | fail (text : String)
  deriving DecidableEq, Repr

/-- A stream to write to, with the bytes that it has taken. After its last uptake it takes all. -/
structure Sink where
  uptakes : List Uptake
  written : Bytes
  deriving DecidableEq, Repr

namespace Sink

def writeBytes (written : Bytes) : List Uptake → Bytes → Sink × Except String Unit
  | uptakes, [] => (⟨uptakes, written⟩, .ok ())
  | [], bytes => (⟨[], written ++ bytes⟩, .ok ())
  | .fail text :: rest, _ => (⟨.fail text :: rest, written⟩, .error text)
  | .room n :: rest, bytes =>
    if bytes.length ≤ n then (⟨.room (n - bytes.length) :: rest, written ++ bytes⟩, .ok ())
    else writeBytes (written ++ bytes.take n) rest (bytes.drop n)

def write (s : Sink) (bytes : Bytes) : Sink × Except String Unit :=
  writeBytes s.written s.uptakes bytes

def writeEach (s : Sink) : List Bytes → Sink × Except String Unit
  | [] => (s, .ok ())
  | piece :: rest =>
    match s.write piece with
    | (s, .ok ()) => writeEach s rest
    | (s, .error text) => (s, .error text)

end Sink

end SealedContainer
