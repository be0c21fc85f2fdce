import SealedContainer.Container.Frame
import SealedContainer.Proofs.Bytes
import SealedContainer.Proofs.Container.Stream
import SealedContainer.Proofs.Outcome

/-!
Reading a frame: what is written in front of a payload is read back, and whatever is read was
written that way.
-/

namespace SealedContainer.Frame

open Outcome

def prelude (size : Nat) : Bytes := mark ++ [version] ++ Bytes.ofNatBE 4 size

@[simp] theorem length_prelude (size : Nat) : (prelude size).length = preludeSize := by
  simp [prelude, preludeSize]
  rfl

theorem flatten_pieces (f : Frame) :
    f.pieces.flatten = prelude f.header.length ++ (f.header ++ f.mac) := by
  simp [pieces, prelude]

private theorem length_mark : mark.length = 4 := rfl

theorem drop_prelude (size : Nat) : (prelude size).drop 5 = Bytes.ofNatBE 4 size := by
  rw [show 5 = (mark ++ [version]).length by rfl, prelude, List.drop_left]

/-- A prelude announces the length that it was written with, and only that. -/
theorem announced_eq_ok {minimum size : Nat} {bytes : Bytes} (full : bytes.length = preludeSize) :
    announced minimum bytes = .ok size ↔
      bytes = prelude size ∧ size < 2 ^ 32 ∧ minimum ≤ size := by
  have nine : bytes.length = 9 := full
  have five : (bytes.drop 5).length = 4 := by rw [List.length_drop, nine]
  simp only [announced, if_neg (Nat.not_lt.mpr (Nat.le_of_eq full.symm)), throw_eq_error]
  constructor
  · intro read
    split at read
    · cases read
    rename_i marked
    split at read
    · cases read
    rename_i versioned
    split at read
    · cases read
    rename_i enough
    rw [Classical.not_not] at marked versioned
    have announces : Bytes.toNatBE (bytes.drop 5) = size := Except.ok.inj read
    have below : size < 2 ^ 32 := by
      have bound := Bytes.toNatBE_lt (bytes.drop 5)
      rw [five, announces] at bound
      exact bound
    have tail : bytes.drop 4 = version :: bytes.drop 5 := by
      cases rest : bytes.drop 4 with
      | nil =>
          have short := congrArg List.length rest
          rw [List.length_drop, nine] at short
          simp at short
      | cons b more =>
          rw [rest, List.headD_cons] at versioned
          rw [versioned, show 5 = 4 + 1 by rfl, ← List.drop_drop, rest]
          rfl
    refine ⟨?_, below, by rw [announces] at enough; omega⟩
    have written := Bytes.ofNatBE_toNatBE (bytes.drop 5)
    rw [five, announces] at written
    rw [prelude, written, ← marked, List.append_assoc, List.singleton_append, ← tail,
      List.take_append_drop]
  · rintro ⟨rfl, below, enough⟩
    have marked : (prelude size).take 4 = mark := by
      rw [prelude, List.append_assoc, ← length_mark, List.take_left]
    have tail : (prelude size).drop 4 = version :: Bytes.ofNatBE 4 size := by
      rw [prelude, List.append_assoc, ← length_mark, List.drop_left]
      rfl
    rw [marked, tail, drop_prelude, Bytes.toNatBE_ofNatBE_of_lt below]
    simp only [List.headD_cons, ne_eq, not_true_eq_false, if_false, if_neg (Nat.not_lt.mpr enough)]
    rfl

theorem kind_of_announced_eq_error {minimum : Nat} {prelude : Bytes} {e : CryptoError}
    (refused : announced minimum prelude = .error e) : e.kind = .parse := by
  simp only [announced, throw_eq_error] at refused
  split at refused
  · cases refused
    rfl
  split at refused
  · cases refused
    rfl
  split at refused
  · cases refused
    rfl
  split at refused
  · cases refused
    rfl
  · cases refused

theorem le_length_of_announced {minimum size : Nat} {bytes : Bytes}
    (announces : announced minimum bytes = .ok size) : preludeSize ≤ bytes.length := by
  unfold announced at announces
  split at announces
  · cases announces
  · omega

theorem mapError_leaving {α : Type} (left : Source) (x : Except CryptoError α) :
    (Stop.leaving left x).mapError Stop.error = x := by
  cases x <;> rfl

theorem reading_eq_ok {α : Type} {x : Except StreamFailure α} {a : α} :
    reading x = .ok a ↔ x = .ok a :=
  mapError_eq_ok

theorem read_eq_ok {minimum : Nat} {source rest : Source} {f : Frame} :
    read minimum source = .ok (f, rest) ↔ readFrom minimum source = .ok (f, rest) :=
  mapError_eq_ok

theorem read_eq (minimum : Nat) (source : Source) : read minimum source = (do
    let (prelude, source) ← (source.read preludeSize).mapError preludeFailure
    let size ← announced minimum prelude
    let (body, source) ← reading (source.read (size + macSize))
    if body.length ≠ size + macSize then throw (.headerBeyond size body.length)
    else return (⟨body.take size, body.drop size⟩, source)) := by
  rw [read, readFrom, mapError_bind, mapError_leaving]
  apply bind_congr
  intro (prelude, source)
  dsimp only
  rw [mapError_bind, mapError_leaving]
  apply bind_congr
  intro size
  rw [mapError_bind, mapError_leaving]
  apply bind_congr
  intro (body, source)
  exact apply_ite (Except.mapError Stop.error) ..

/-- Only the prelude is read when it announces no header. -/
theorem readFrom_of_announced_error {minimum : Nat} {bytes : Bytes} {e : CryptoError}
    (full : bytes.length = preludeSize) (refused : announced minimum bytes = .error e)
    (source : Source) (delivered : bytes <+: source.bytes) :
    ∃ left, source.Cut bytes left ∧ readFrom minimum source = .error ⟨e, left⟩ := by
  rcases source.read_of_front bytes delivered with ⟨rest, got, _⟩
  rw [full] at got
  refine ⟨rest, Source.cut_of_read got, ?_⟩
  simp only [readFrom, got, Stop.leaving, Except.mapError, ok_bind, refused, error_bind]

theorem readFrom_of_front {minimum : Nat} (f : Frame) (macFull : f.mac.length = macSize)
    (below : f.header.length < 2 ^ 32) (enough : minimum ≤ f.header.length)
    (source : Source) (delivered : f.pieces.flatten <+: source.bytes) :
    ∃ rest : Source, readFrom minimum source = .ok (f, rest) := by
  have announces : announced minimum (prelude f.header.length) = .ok f.header.length :=
    (announced_eq_ok (length_prelude _)).mpr ⟨rfl, below, enough⟩
  have body : (f.header ++ f.mac).length = f.header.length + macSize := by
    rw [List.length_append, macFull]
  rw [flatten_pieces] at delivered
  rcases source.read_of_front (prelude f.header.length) ((List.prefix_append _ _).trans delivered)
    with ⟨middle, first, split, _⟩
  rw [split] at delivered
  rcases middle.read_of_front (f.header ++ f.mac) ((List.prefix_append_right_inj _).mp delivered)
    with ⟨rest, second, _⟩
  rw [length_prelude] at first
  rw [body] at second
  refine ⟨rest, ?_⟩
  simp only [readFrom, first, second, reading, Stop.leaving, Except.mapError, ok_bind, announces,
    body, ne_eq, not_true_eq_false, if_false, List.take_left, List.drop_left]
  rfl

/-- A frame that is read is taken off the stream, with the length that it announces. -/
theorem cut_of_readFrom {minimum : Nat} {source rest : Source} {f : Frame}
    (got : readFrom minimum source = .ok (f, rest)) :
    source.Cut f.pieces.flatten rest ∧ f.mac.length = macSize ∧ f.header.length < 2 ^ 32 ∧
      minimum ≤ f.header.length := by
  obtain ⟨⟨front, middle⟩, first, got⟩ := bind_eq_ok.mp got
  obtain ⟨size, announces, got⟩ := bind_eq_ok.mp got
  obtain ⟨⟨body, last⟩, second, got⟩ := bind_eq_ok.mp got
  simp only [Stop.leaving, reading, mapError_eq_ok] at first announces second
  simp only at got
  split at got
  · cases got
  rename_i whole
  rw [Classical.not_not] at whole
  obtain ⟨rfl, rfl⟩ := Prod.mk.inj (Except.ok.inj got)
  have full : front.length = preludeSize :=
    Nat.le_antisymm (Source.length_le_of_read first) (le_length_of_announced announces)
  obtain ⟨rfl, below, enough⟩ := (announced_eq_ok full).mp announces
  have headerSize : (body.take size).length = size := by
    rw [List.length_take, whole]
    omega
  have macFull : (body.drop size).length = macSize := by
    rw [List.length_drop, whole]
    omega
  refine ⟨?_, macFull, by rwa [headerSize], by rwa [headerSize]⟩
  have both := (Source.cut_of_read first).trans (Source.cut_of_read second)
  rwa [flatten_pieces, headerSize, List.take_append_drop]

theorem cut_of_read {minimum : Nat} {source rest : Source} {f : Frame}
    (got : read minimum source = .ok (f, rest)) :
    source.Cut f.pieces.flatten rest ∧ f.mac.length = macSize ∧ f.header.length < 2 ^ 32 ∧
      minimum ≤ f.header.length :=
  cut_of_readFrom (read_eq_ok.mp got)

theorem read_of_front {minimum : Nat} (f : Frame) (macFull : f.mac.length = macSize)
    (below : f.header.length < 2 ^ 32) (enough : minimum ≤ f.header.length)
    (source : Source) (delivered : f.pieces.flatten <+: source.bytes) :
    ∃ rest : Source, read minimum source = .ok (f, rest) ∧
      source.readAll = rest.readAll.map (f.pieces.flatten ++ ·) := by
  obtain ⟨rest, got⟩ := readFrom_of_front f macFull below enough source delivered
  exact ⟨rest, read_eq_ok.mpr got, (cut_of_readFrom got).1.readAll_eq⟩

theorem eq_of_read {minimum : Nat} {source rest : Source} {all : Bytes} {f : Frame}
    (delivered : source.readAll = .ok all) (got : read minimum source = .ok (f, rest)) :
    ∃ payload, all = f.pieces.flatten ++ payload ∧ rest.readAll = .ok payload ∧
      f.mac.length = macSize ∧ f.header.length < 2 ^ 32 ∧ minimum ≤ f.header.length := by
  obtain ⟨cut, macFull, below, enough⟩ := cut_of_read got
  have split := cut.readAll_eq
  rw [delivered] at split
  cases remains : rest.readAll with
  | error failure => simp [remains, Except.map] at split
  | ok payload =>
      simp only [remains, Except.map, Except.ok.injEq] at split
      exact ⟨payload, split, rfl, macFull, below, enough⟩

end SealedContainer.Frame
