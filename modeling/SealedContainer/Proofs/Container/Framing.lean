import SealedContainer.Container
import SealedContainer.Proofs.Container.Frame

/-!
How a stream is framed. Main statement: `framed_exactly`. What is read, and every way in which it
cannot be, is decided by the bytes that the stream delivers and by whether it ends or fails behind
them; the pieces in which they come do not matter, and nothing behind the frame is looked at.
`readInWords` reads a frame with numbers of fixed width, and shows that none of them overflows.
-/

namespace SealedContainer

open Outcome

/-- What an end or a failure is reported as in front of a header. -/
def Source.preludeKind (source : Source) : ErrorKind :=
  match source.failure?.map StreamFailure.kind with
  | some .other => .io
  | some .unexpectedEnd | none => .parse

def Source.bodyKind (source : Source) : ErrorKind :=
  if source.failure?.isSome then .io else .parse

namespace Frame

/-- The first nine bytes show that no frame is to be read. -/
def Misfit (minimum : Nat) (front : Bytes) : Prop :=
  front.take 4 ≠ Bytes.ofString "CDOC" ∨ front[4]? ≠ some 2 ∨
    Bytes.toNatBE (front.drop 5) < minimum

variable {minimum : Nat}

theorem eq_prelude_of_fit {front : Bytes} (full : front.length = preludeSize)
    (fit : ¬ Misfit minimum front) :
    front = prelude (Bytes.toNatBE (front.drop 5)) ∧ Bytes.toNatBE (front.drop 5) < 2 ^ 32 ∧
      minimum ≤ Bytes.toNatBE (front.drop 5) := by
  simp only [Misfit, not_or, Classical.not_not, Nat.not_lt] at fit
  obtain ⟨marked, versioned, enough⟩ := fit
  have nine : front.length = 9 := full
  have four : (front.drop 5).length = 4 := by rw [List.length_drop, nine]
  have fifth : front[4] = 2 := by
    rwa [List.getElem?_eq_getElem (by omega), Option.some.injEq] at versioned
  refine ⟨?_, ?_, enough⟩
  · calc
      front = front.take 4 ++ front[4] :: front.drop 5 := by
        rw [List.getElem_cons_drop, List.take_append_drop]
      _ = mark ++ version :: Bytes.ofNatBE 4 (Bytes.toNatBE (front.drop 5)) := by
        rw [marked, fifth, ← four, Bytes.ofNatBE_toNatBE]
        rfl
      _ = prelude (Bytes.toNatBE (front.drop 5)) := by simp [prelude]
  · have bound := Bytes.toNatBE_lt (front.drop 5)
    rwa [four] at bound

theorem fit_prelude {size : Nat} (below : size < 2 ^ 32) (enough : minimum ≤ size) :
    ¬ Misfit minimum (prelude size) := by
  have cut : prelude size = mark ++ version :: Bytes.ofNatBE 4 size := by simp [prelude]
  have length : mark.length = 4 := rfl
  intro misfit
  rcases misfit with wrong | wrong | wrong
  · apply wrong
    rw [cut, ← length, List.take_left]
    rfl
  · apply wrong
    rw [cut, ← length, List.getElem?_append_right (Nat.le_refl _), Nat.sub_self]
    rfl
  · rw [drop_prelude, Bytes.toNatBE_ofNatBE_of_lt below] at wrong
    omega

theorem read_of_short {source : Source} (short : source.bytes.length < preludeSize) :
    ∃ e, read minimum source = .error e ∧ e.kind = source.preludeKind := by
  simp only [read, readFrom, Source.read_of_short short, Source.preludeKind]
  cases source.failure? with
  | some failure =>
      refine ⟨preludeFailure failure, rfl, ?_⟩
      rcases failure with ⟨text, kind⟩
      cases kind <;> rfl
  | none =>
      refine ⟨.truncated, ?_, rfl⟩
      simp only [Stop.leaving, Except.mapError, ok_bind, announced, if_pos short]
      rfl

section Prelude

variable {source : Source} (long : preludeSize ≤ source.bytes.length)

include long

theorem length_front : (source.bytes.take preludeSize).length = preludeSize := by
  rw [List.length_take, Nat.min_eq_left long]

theorem read_of_misfit (misfit : Misfit minimum (source.bytes.take preludeSize)) :
    ∃ e, read minimum source = .error e ∧ e.kind = .parse := by
  cases announces : announced minimum (source.bytes.take preludeSize) with
  | ok size =>
      obtain ⟨front, below, enough⟩ := (announced_eq_ok (length_front long)).mp announces
      rw [front] at misfit
      exact absurd misfit (fit_prelude below enough)
  | error e =>
      obtain ⟨left, _, refused⟩ := readFrom_of_announced_error (length_front long) announces source
        (List.take_prefix _ _)
      exact ⟨e, by rw [read, refused]; rfl, kind_of_announced_eq_error announces⟩

theorem read_of_short_body (fit : ¬ Misfit minimum (source.bytes.take preludeSize))
    (short : source.bytes.length <
      preludeSize + Bytes.toNatBE ((source.bytes.take preludeSize).drop 5) + macSize) :
    ∃ e, read minimum source = .error e ∧ e.kind = source.bodyKind := by
  have full := length_front long
  obtain ⟨middle, first, split, _⟩ := source.read_of_front _ (List.take_prefix preludeSize _)
  rw [full] at first
  -- Behind the prelude the stream ends or fails as it did in front of it.
  have failure := (Source.cut_of_read first).failure?_eq
  have announces := (announced_eq_ok full).mpr (eq_prelude_of_fit full fit)
  generalize Bytes.toNatBE ((source.bytes.take preludeSize).drop 5) = size at short announces
  have remains : middle.bytes.length < size + macSize := by
    have sizes := congrArg List.length split
    rw [List.length_append, full] at sizes
    omega
  simp only [read, readFrom, first, Stop.leaving, Except.mapError, ok_bind, announces,
    Source.read_of_short remains, Source.bodyKind, failure]
  cases source.failure? with
  | some text => exact ⟨_, rfl, rfl⟩
  | none =>
      refine ⟨.headerBeyond size middle.bytes.length, ?_, rfl⟩
      simp only [reading, Except.mapError, ok_bind, if_pos (Nat.ne_of_lt remains), throw_eq_error]

end Prelude

theorem read_eq_ok_iff {source : Source} {f : Frame} :
    (∃ rest, read minimum source = .ok (f, rest)) ↔
      f.mac.length = macSize ∧ f.header.length < 2 ^ 32 ∧ minimum ≤ f.header.length ∧
        f.pieces.flatten <+: source.bytes := by
  constructor
  · intro got
    obtain ⟨rest, got⟩ := got
    obtain ⟨cut, macFull, below, enough⟩ := cut_of_read got
    exact ⟨macFull, below, enough, rest.bytes, cut.bytes_eq.symm⟩
  · intro framed
    obtain ⟨macFull, below, enough, delivered⟩ := framed
    obtain ⟨rest, got, _⟩ := read_of_front f macFull below enough source delivered
    exact ⟨rest, got⟩

def sum? (a b : UInt64) : Option UInt64 :=
  if a.toNat + b.toNat < 2 ^ 64 then some (a + b) else none

def slice? (bytes : Bytes) (start stop : Nat) : Option Bytes :=
  if start ≤ stop ∧ stop ≤ bytes.length then some ((bytes.take stop).drop start) else none

def filling? (size : Nat) (bytes : Bytes) : Option Bytes :=
  if bytes.length = size then some bytes else none

def announcedInWords (minimum : UInt32) (front : Bytes) : Option (Except CryptoError UInt32) :=
  if front.length < preludeSize then some (.error .truncated)
  else do
    let start ← slice? front 0 4
    let got ← front[4]?
    let field ← slice? front 5 9
    let size := UInt32.ofNat (Bytes.toNatBE field)
    return if start ≠ mark then .error .prelude
      else if got ≠ version then .error (.version got)
      else if size < minimum then .error (.headerBelow size.toNat minimum.toNat)
      else .ok size

def bodyInWords (size : UInt32) (source : Source) : Option (Except CryptoError (Frame × Source)) := do
  let needed ← sum? size.toUInt64 32
  match source.read needed.toNat with
  | .error fault => return .error (.io fault.text)
  | .ok (body, source) =>
    if body.length ≠ needed.toNat then return .error (.headerBeyond size.toNat body.length)
    else
      let mac ← filling? macSize (← slice? body size.toNat body.length)
      return .ok (⟨body.take size.toNat, mac⟩, source)

/-- Reads a frame with lengths in machine words. A sum that overflows, a slice that is out of range
and a field that is not filled give nothing. -/
def readInWords (minimum : UInt32) (source : Source) :
    Option (Except CryptoError (Frame × Source)) :=
  match source.read preludeSize with
  | .error fault => some (.error (preludeFailure fault))
  | .ok (front, source) => do
    match ← announcedInWords minimum front with
    | .error e => return .error e
    | .ok size => bodyInWords size source

theorem slice?_eq_some {bytes : Bytes} {start stop : Nat} (ordered : start ≤ stop)
    (inside : stop ≤ bytes.length) :
    slice? bytes start stop = some ((bytes.take stop).drop start) :=
  if_pos ⟨ordered, inside⟩

theorem sum?_eq_some (size : UInt32) :
    ∃ needed, sum? size.toUInt64 32 = some needed ∧ needed.toNat = size.toNat + macSize := by
  have bound := size.toNat_lt
  have fits : size.toUInt64.toNat + (32 : UInt64).toNat < 2 ^ 64 := by
    rw [UInt32.toNat_toUInt64]
    change size.toNat + 32 < 2 ^ 64
    omega
  refine ⟨size.toUInt64 + 32, if_pos fits, ?_⟩
  rw [UInt64.toNat_add, Nat.mod_eq_of_lt fits, UInt32.toNat_toUInt64]
  rfl

theorem announcedInWords_eq (minimum : UInt32) {front : Bytes} (short : front.length ≤ preludeSize) :
    ∃ result, announcedInWords minimum front = some result ∧
      announced minimum.toNat front = result.map UInt32.toNat := by
  unfold announcedInWords announced
  by_cases partly : front.length < preludeSize
  · exact ⟨.error .truncated, by simp only [if_pos partly], by simp only [if_pos partly]; rfl⟩
  have full : front.length = 9 := Nat.le_antisymm short (Nat.le_of_not_lt partly)
  have bound : Bytes.toNatBE (front.drop 5) < 2 ^ 32 := by
    have below := Bytes.toNatBE_lt (front.drop 5)
    rwa [List.length_drop, full] at below
  have size : (UInt32.ofNat (Bytes.toNatBE (front.drop 5))).toNat = Bytes.toNatBE (front.drop 5) :=
    UInt32.toNat_ofNat_of_lt bound
  have start := slice?_eq_some (Nat.zero_le 4) (show 4 ≤ front.length by omega)
  have got : front[4]? = some ((front.drop 4).headD 0) := by
    rw [List.headD_eq_head?_getD, List.head?_drop, List.getElem?_eq_getElem (by omega)]
    rfl
  have field := slice?_eq_some (show 5 ≤ 9 by omega) (show 9 ≤ front.length by omega)
  rw [List.take_of_length_le (Nat.le_of_eq full)] at field
  simp only [if_neg partly, start, got, field, Option.bind_eq_bind, Option.bind_some,
    List.drop_zero]
  refine ⟨_, rfl, ?_⟩
  rw [apply_ite (Except.map UInt32.toNat), apply_ite (Except.map UInt32.toNat),
    apply_ite (Except.map UInt32.toNat)]
  simp only [Except.map, UInt32.lt_iff_toNat_lt, size, throw_eq_error, pure_eq_ok]

theorem bodyInWords_eq (size : UInt32) (source : Source) :
    bodyInWords size source = some (do
      let (body, source) ← reading (source.read (size.toNat + macSize))
      if body.length ≠ size.toNat + macSize then throw (.headerBeyond size.toNat body.length)
      else return (⟨body.take size.toNat, body.drop size.toNat⟩, source)) := by
  obtain ⟨needed, sum, same⟩ := sum?_eq_some size
  simp only [bodyInWords, sum, same, Option.bind_eq_bind, Option.bind_some]
  cases source.read (size.toNat + macSize) with
  | error failure => rfl
  | ok body =>
      obtain ⟨body, rest⟩ := body
      by_cases whole : body.length = size.toNat + macSize
      · have inside : size.toNat ≤ body.length := by omega
        have fills : (body.drop size.toNat).length = macSize := by
          rw [List.length_drop]
          omega
        simp only [slice?_eq_some inside (Nat.le_refl _), List.take_length, filling?, if_pos fills,
          if_neg (Classical.not_not.mpr whole), Option.bind_some, reading, Except.mapError, ok_bind]
        rfl
      · simp only [if_pos whole, reading, Except.mapError, ok_bind]
        rfl

/-- No sum overflows, no slice is out of range and no field is left open. -/
theorem readInWords_eq (minimum : UInt32) (source : Source) :
    readInWords minimum source = some (read minimum.toNat source) := by
  rw [read_eq]
  unfold readInWords
  cases first : source.read preludeSize with
  | error failure => rfl
  | ok front =>
      obtain ⟨result, words, same⟩ :=
        announcedInWords_eq minimum (Source.length_le_of_read first)
      simp only [Except.mapError, ok_bind, words, same, Option.bind_eq_bind, Option.bind_some]
      cases result with
      | error e => rfl
      | ok size => exact bodyInWords_eq size front.2

end Frame

namespace Container

theorem readHeader_eq {minimum : Nat} {source rest : Source} {f : Frame}
    (got : Frame.read minimum source = .ok (f, rest)) :
    readHeader minimum source =
      (openHeader f.header >>= recipients).map fun list => (f, list, rest) := by
  simp only [readHeader, got, ok_bind]
  cases openHeader f.header with
  | error e => rfl
  | ok h =>
      simp only [ok_bind]
      cases recipients h <;> rfl

/-- Neither a frame nor what is in its header is read, for a reason of this kind. -/
def Stops (minimum : Nat) (source : Source) (kind : ErrorKind) : Prop :=
  ∃ e, Frame.read minimum source = .error e ∧ readHeader minimum source = .error e ∧ e.kind = kind

theorem stops_of_read {minimum : Nat} {source : Source} {kind : ErrorKind}
    (stopped : ∃ e, Frame.read minimum source = .error e ∧ e.kind = kind) :
    Stops minimum source kind := by
  obtain ⟨e, unread, same⟩ := stopped
  exact ⟨e, unread, by rw [readHeader, unread, error_bind], same⟩

/--
A frame is read if and only if it stands at the front of the stream, in whatever pieces the stream
comes. It is then taken off the stream and nothing else is, and every stream that delivers the same
bytes first gives the same frame and the same recipients, also one that fails right behind them. A
stream that is too short is malformed if it ends and an input error if it fails. But nine bytes that
are no prelude are malformed whatever comes behind them, and short of nine bytes a failure that says
that the stream has ended too early is taken at its word. Lengths fit into machine words throughout.
-/
theorem framed_exactly (minimum : UInt32) (source : Source) :
    (∀ header mac : Bytes,
      (∃ rest, Frame.read minimum.toNat source = .ok (⟨header, mac⟩, rest)) ↔
        mac.length = 32 ∧ header.length < 2 ^ 32 ∧ minimum.toNat ≤ header.length ∧
          ∃ rest, source.bytes = Bytes.ofString "CDOC" ++ [2] ++ Bytes.ofNatBE 4 header.length ++
            header ++ mac ++ rest) ∧
      (∀ (f : Frame) (rest : Source), Frame.read minimum.toNat source = .ok (f, rest) →
        f.pieces.flatten.length = 9 + f.header.length + 32 ∧ source.Cut f.pieces.flatten rest ∧
          ∀ other : Source, f.pieces.flatten <+: other.bytes →
            ∃ left, Frame.read minimum.toNat other = .ok (f, left) ∧
              other.Cut f.pieces.flatten left ∧ readHeader minimum.toNat other =
                (openHeader f.header >>= recipients).map fun list => (f, list, left)) ∧
      (source.bytes.length < 9 → Stops minimum.toNat source source.preludeKind) ∧
      (9 ≤ source.bytes.length → Frame.Misfit minimum.toNat (source.bytes.take 9) →
        Stops minimum.toNat source .parse) ∧
      (9 ≤ source.bytes.length → ¬ Frame.Misfit minimum.toNat (source.bytes.take 9) →
        source.bytes.length < 9 + Bytes.toNatBE ((source.bytes.take 9).drop 5) + 32 →
        Stops minimum.toNat source source.bodyKind) ∧
      Frame.readInWords minimum source = some (Frame.read minimum.toNat source) := by
  refine ⟨?_, ?_, ?_, ?_, ?_, Frame.readInWords_eq minimum source⟩
  · intro header mac
    rw [Frame.read_eq_ok_iff]
    apply and_congr_right'
    apply and_congr_right'
    apply and_congr_right'
    apply exists_congr
    intro rest
    rw [Frame.flatten_pieces, eq_comm]
    simp [Frame.prelude, Frame.mark, Frame.version]
  · intro f rest got
    obtain ⟨cut, macFull, below, enough⟩ := Frame.cut_of_read got
    refine ⟨?_, cut, ?_⟩
    · rw [Frame.flatten_pieces, List.length_append, List.length_append, Frame.length_prelude, macFull,
        ← Nat.add_assoc]
      rfl
    · intro other delivered
      obtain ⟨left, again⟩ := Frame.read_eq_ok_iff.mpr ⟨macFull, below, enough, delivered⟩
      exact ⟨left, again, (Frame.cut_of_read again).1, readHeader_eq again⟩
  · intro short
    exact stops_of_read (Frame.read_of_short short)
  · intro long misfit
    exact stops_of_read (Frame.read_of_misfit long misfit)
  · intro long fit short
    exact stops_of_read (Frame.read_of_short_body long fit short)

/-- Two streams that fail in the prelude. One says that it has ended too early, and is malformed;
the other is an input error, although four of its bytes are already wrong. -/
theorem broken_preludes :
    Stops Frame.minHeaderSize [.chunk (Bytes.ofString "CDOC"), .fail ⟨"cut", .unexpectedEnd⟩]
      .parse ∧
    Frame.Misfit Frame.minHeaderSize (Bytes.ofString "ZIPPY") ∧
    Stops Frame.minHeaderSize [.chunk (Bytes.ofString "ZIPPY"), .fail "cut"] .io := by
  refine ⟨⟨.truncated, rfl, rfl, rfl⟩, .inl (by decide), ⟨.io "cut", rfl, rfl, rfl⟩⟩

/-- A stream that fails right behind a frame: the frame is read, and the failure is what is left. -/
example : Frame.read Frame.minHeaderSize
    [.chunk (Frame.prelude 1 ++ [7, 0]), .chunk (List.replicate 31 0), .fail "cut"] =
      .ok (⟨[7], List.replicate 32 0⟩, [.fail "cut"]) := by
  rfl

end Container

end SealedContainer
