import SealedContainer.Bytes
import SealedContainer.Square

/-!
The password hash Argon2id, version 1.3, without a secret or associated data, on BLAKE2b without a
key.

The memory is a matrix of blocks of 128 words: a row for each lane, each row cut into four
slices. A block is mixed from the one before it and an earlier block, which the position picks in
the first half of the first pass and the data picks afterwards.
-/

namespace SealedContainer.Blake2b

def rotate (x n : UInt64) : UInt64 := (x >>> n) ||| (x <<< (64 - n))

/-- The mixing step on four words, with `add` for the sums and two message words put in. -/
def mix (add : UInt64 → UInt64 → UInt64) (p q : UInt64) (r : Row UInt64) : Row UInt64 :=
  let a := add r.x r.y + p
  let d := rotate (r.w ^^^ a) 32
  let c := add r.z d
  let b := rotate (r.y ^^^ c) 24
  let a := add a b + q
  let d := rotate (d ^^^ a) 16
  let c := add c d
  ⟨a, rotate (b ^^^ c) 63, c, d⟩

/-- The fractional parts of the square roots of the first eight primes. -/
def initial : List UInt64 :=
  [0x6a09e667f3bcc908, 0xbb67ae8584caa73b, 0x3c6ef372fe94f82b, 0xa54ff53a5f1d36f1,
   0x510e527fade682d1, 0x9b05688c2b3e6c1f, 0x1f83d9abfb41bd6b, 0x5be0cd19137e2179]

def schedule : List (List Nat) :=
  let orders := [
    [0, 1, 2, 3, 4, 5, 6, 7, 8, 9, 10, 11, 12, 13, 14, 15],
    [14, 10, 4, 8, 9, 15, 13, 6, 1, 12, 0, 2, 11, 7, 5, 3],
    [11, 8, 12, 0, 5, 2, 15, 13, 10, 14, 3, 6, 7, 1, 9, 4],
    [7, 9, 3, 1, 13, 12, 11, 14, 2, 6, 5, 10, 4, 0, 15, 8],
    [9, 0, 5, 7, 2, 4, 10, 15, 14, 1, 11, 12, 6, 8, 3, 13],
    [2, 12, 6, 10, 0, 11, 8, 3, 4, 13, 7, 5, 15, 14, 1, 9],
    [12, 5, 1, 15, 14, 13, 4, 10, 0, 7, 6, 3, 9, 2, 8, 11],
    [13, 11, 7, 14, 12, 1, 3, 9, 5, 0, 15, 4, 8, 6, 2, 10],
    [6, 15, 14, 9, 11, 3, 0, 8, 12, 2, 13, 7, 1, 4, 10, 5],
    [10, 2, 8, 4, 7, 6, 1, 5, 15, 11, 9, 14, 3, 12, 13, 0]]
  orders ++ orders.take 2

def round (message : Array UInt64) (s : Square UInt64) (order : List Nat) : Square UInt64 :=
  let word (i : Nat) : UInt64 := message.getD (order.getD i 0) 0
  let step (i : Nat) : Row UInt64 → Row UInt64 := mix (· + ·) (word i) (word (i + 1))
  (s.columns ⟨step 0, step 2, step 4, step 6⟩).diagonals ⟨step 8, step 10, step 12, step 14⟩

def word (bytes : Bytes) : UInt64 := UInt64.ofNat (Bytes.toNatLE bytes)

/-- Folds one block of 128 bytes into eight words; `total` counts the bytes up to its end. -/
def compress (h : List UInt64) (block : Bytes) (total : Nat) (last : Bool) : List UInt64 :=
  let message := ((Bytes.chunks 8 block).map word).toArray
  let low := initial.getD 4 0 ^^^ UInt64.ofNat total
  let high := initial.getD 5 0 ^^^ UInt64.ofNat (total / 2 ^ 64)
  let finish := if last then ~~~(initial.getD 6 0) else initial.getD 6 0
  let start := Square.ofList 0 (h ++ initial.take 4 ++ [low, high, finish, initial.getD 7 0])
  let mixed := (schedule.foldl (round message) start).toList
  List.zipWith (· ^^^ ·) h (List.zipWith (· ^^^ ·) (mixed.take 8) (mixed.drop 8))

def absorb (h : List UInt64) (done : Nat) : List Bytes → List UInt64
  | [] => h
  | [block] =>
    compress h (block ++ List.replicate (128 - block.length) 0) (done + block.length) true
  | block :: rest => absorb (compress h block (done + 128) false) (done + 128) rest

end Blake2b

def blake2b (size : Nat) (message : Bytes) : Bytes :=
  let start := Blake2b.initial.modify 0 (· ^^^ (0x01010000 ^^^ UInt64.ofNat size))
  let blocks := if message = [] then [[]] else Bytes.chunks 128 message
  ((Blake2b.absorb start 0 blocks).flatMap fun w => Bytes.ofNatLE 8 w.toNat).take size

end SealedContainer

namespace SealedContainer.Argon2id

/-- What a hash costs: memory in units of 1024 bytes, passes over it, and lanes. -/
structure Cost where
  memory : Nat
  iterations : Nat
  lanes : Nat
  deriving DecidableEq, Repr

/-- The costs that the definition allows: two blocks for each slice of each lane, at least. -/
def Cost.Valid (c : Cost) : Prop :=
  8 ≤ c.memory ∧ 8 * c.lanes ≤ c.memory ∧ 1 ≤ c.iterations ∧ 1 ≤ c.lanes ∧ c.lanes < 2 ^ 24

instance (c : Cost) : Decidable c.Valid := by unfold Cost.Valid; infer_instance

def Cost.sliceSize (c : Cost) : Nat := c.memory / (4 * c.lanes)

def Cost.laneSize (c : Cost) : Nat := 4 * c.sliceSize

abbrev Block := Array UInt64

def zeroBlock : Block := Array.replicate 128 0

def xorBlocks (a b : Block) : Block := Array.zipWith (· ^^^ ·) a b

def multiplyAdd (a b : UInt64) : UInt64 :=
  a + b + 2 * (a &&& 0xffffffff) * (b &&& 0xffffffff)

def permute (s : Square UInt64) : Square UInt64 :=
  let mix := Blake2b.mix multiplyAdd 0 0
  (s.columns ⟨mix, mix, mix, mix⟩).diagonals ⟨mix, mix, mix, mix⟩

def permuteAt (b : Block) (places : List Nat) : Block :=
  let mixed := permute (Square.ofList 0 (places.map fun i => b.getD i 0))
  (places.zip mixed.toList).foldl (fun b (i, w) => b.setIfInBounds i w) b

/-- The places that are permuted together: the rows of a block, then its double columns. -/
def places : List (List Nat) :=
  (List.range 8).map (fun i => (List.range 16).map (16 * i + ·)) ++
  (List.range 8).map fun i => (List.range 8).flatMap fun j => [16 * j + 2 * i, 16 * j + 2 * i + 1]

def mixBlocks (a b : Block) : Block :=
  let sum := xorBlocks a b
  xorBlocks sum (places.foldl permuteAt sum)

/--
The front halves of `n` digests, each of the one before it, and a last digest of `size` bytes.
-/
def digestChain (size : Nat) : Nat → Bytes → Bytes
  | 0, digest => blake2b size digest
  | n + 1, digest => (blake2b 64 digest).take 32 ++ digestChain size n (blake2b 64 digest)

def longHash (size : Nat) (message : Bytes) : Bytes :=
  let input := Bytes.ofNatLE 4 size ++ message
  if size ≤ 64 then blake2b size input
  else
    let links := (size + 31) / 32 - 2
    (blake2b 64 input).take 32 ++ digestChain (size - 32 * links) (links - 1) (blake2b 64 input)

def blockOfBytes (bytes : Bytes) : Block := ((Bytes.chunks 8 bytes).map Blake2b.word).toArray

def bytesOfBlock (b : Block) : Bytes := b.toList.flatMap fun w => Bytes.ofNatLE 8 w.toNat

def sized (bytes : Bytes) : Bytes := Bytes.ofNatLE 4 bytes.length ++ bytes

def seed (c : Cost) (size : Nat) (password salt : Bytes) : Bytes :=
  blake2b 64 ((([c.lanes, size, c.memory, c.iterations, 0x13, 2].map (Bytes.ofNatLE 4)).flatten) ++
    sized password ++ sized salt ++ sized [] ++ sized [])

structure Position where
  pass : Nat
  slice : Nat
  lane : Nat
  index : Nat

/-- The words that pick the earlier blocks of a slice by position alone. -/
def addresses (c : Cost) (p : Position) : Array UInt64 :=
  let block (counter : Nat) : Block :=
    let numbers := [p.pass, p.lane, p.slice, c.lanes * c.laneSize, c.iterations, 2, counter]
    let input := (numbers.map UInt64.ofNat).toArray ++ Array.replicate 121 0
    mixBlocks zeroBlock (mixBlocks zeroBlock input)
  (List.range ((c.sliceSize + 127) / 128)).foldl (fun all i => all ++ block (i + 1)) #[]

/-- The lane and column of the earlier block that `word` picks. -/
def reference (c : Cost) (p : Position) (word : UInt64) : Nat × Nat :=
  let n := word.toNat
  let lane := if p.pass = 0 ∧ p.slice = 0 then p.lane else n / 2 ^ 32 % c.lanes
  let behind := if p.pass = 0 then p.slice * c.sliceSize else c.laneSize - c.sliceSize
  let area :=
    if lane = p.lane then behind + p.index - 1
    else if p.index = 0 then behind - 1 else behind
  let low := n % 2 ^ 32
  let back := area * (low * low / 2 ^ 32) / 2 ^ 32
  let start := if p.pass = 0 then 0 else (p.slice + 1) * c.sliceSize
  (lane, (start + area - 1 - back) % c.laneSize)

def fillBlock (c : Cost) (table : Array UInt64) (p : Position) (memory : Array Block) :
    Array Block :=
  let column := p.slice * c.sliceSize + p.index
  let place := p.lane * c.laneSize + column
  let before := p.lane * c.laneSize + (column + c.laneSize - 1) % c.laneSize
  let previous := memory.getD before zeroBlock
  let word := if table.isEmpty then previous.getD 0 0 else table.getD p.index 0
  let picked := reference c p word
  let mixed := mixBlocks previous (memory.getD (picked.1 * c.laneSize + picked.2) zeroBlock)
  memory.setIfInBounds place
    (if p.pass = 0 then mixed else xorBlocks mixed (memory.getD place zeroBlock))

def fillSlice (c : Cost) (p : Position) (memory : Array Block) : Array Block :=
  let table := if p.pass = 0 ∧ p.slice < 2 then addresses c p else #[]
  let first := if p.pass = 0 ∧ p.slice = 0 then 2 else 0
  (List.range' first (c.sliceSize - first)).foldl
    (fun memory index => fillBlock c table { p with index } memory) memory

def positions (c : Cost) : List Position :=
  (List.range c.iterations).flatMap fun pass =>
    (List.range 4).flatMap fun slice => (List.range c.lanes).map fun lane => ⟨pass, slice, lane, 0⟩

/-- The memory before the first pass: the first two blocks of each lane come from the seed. -/
def seeded (c : Cost) (digest : Bytes) : Array Block :=
  (List.range c.lanes).foldl (fun memory lane =>
    let block (i : Nat) : Block :=
      blockOfBytes (longHash 1024 (digest ++ Bytes.ofNatLE 4 i ++ Bytes.ofNatLE 4 lane))
    (memory.setIfInBounds (lane * c.laneSize) (block 0)).setIfInBounds (lane * c.laneSize + 1)
      (block 1)) (Array.replicate (c.lanes * c.laneSize) zeroBlock)

def hash (c : Cost) (size : Nat) (password salt : Bytes) : Bytes :=
  let start := seeded c (seed c size password salt)
  let memory := (positions c).foldl (fun memory p => fillSlice c p memory) start
  let last := (List.range c.lanes).foldl (fun sum lane =>
    xorBlocks sum (memory.getD (lane * c.laneSize + c.laneSize - 1) zeroBlock)) zeroBlock
  longHash size (bytesOfBlock last)

end SealedContainer.Argon2id
