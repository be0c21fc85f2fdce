import SealedContainer.Container.Stream
import SealedContainer.Error

/-!
The frame of a container: a mark, a version, the length of the header in four bytes, the header,
and its authentication code. The payload follows.
-/

namespace SealedContainer

structure Frame where
  header : Bytes
  mac : Bytes
  deriving DecidableEq, Repr

/-- An error, and what it leaves of a stream. -/
structure Stop where
  error : CryptoError
  left : Source

def Stop.leaving {α : Type} (left : Source) (x : Except CryptoError α) : Except Stop α :=
  x.mapError (⟨·, left⟩)

namespace Frame

def mark : Bytes := Bytes.ofString "CDOC"

def version : UInt8 := 2

def macSize : Nat := 32

def preludeSize : Nat := 9

def minHeaderSize : Nat := 1

def pieces (f : Frame) : List Bytes :=
  [mark, [version], Bytes.ofNatBE 4 f.header.length, f.header, f.mac]

def announced (minimum : Nat) (prelude : Bytes) : Except CryptoError Nat :=
  let got := (prelude.drop 4).headD 0
  let size := Bytes.toNatBE (prelude.drop 5)
  if prelude.length < preludeSize then throw .truncated
  else if prelude.take 4 ≠ mark then throw .prelude
  else if got ≠ version then throw (.version got)
  else if size < minimum then throw (.headerBelow size minimum)
  else return size

def preludeFailure (failure : StreamFailure) : CryptoError :=
  match failure.kind with
  | .unexpectedEnd => .truncated
  | .other => .io failure.text

/-- Only in a prelude it matters what a failure says. -/
def reading {α : Type} (x : Except StreamFailure α) : Except CryptoError α :=
  x.mapError fun failure => .io failure.text

/-- Reads up to the payload and not beyond. A stream that has failed is over. -/
def readFrom (minimum : Nat) (source : Source) : Except Stop (Frame × Source) := do
  let (prelude, source) ← Stop.leaving [] ((source.read preludeSize).mapError preludeFailure)
  let size ← Stop.leaving source (announced minimum prelude)
  let (body, source) ← Stop.leaving [] (reading (source.read (size + macSize)))
  if body.length ≠ size + macSize then throw ⟨.headerBeyond size body.length, source⟩
  else return (⟨body.take size, body.drop size⟩, source)

def read (minimum : Nat) (source : Source) : Except CryptoError (Frame × Source) :=
  (readFrom minimum source).mapError Stop.error

end Frame

end SealedContainer
