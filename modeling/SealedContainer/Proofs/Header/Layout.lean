import SealedContainer.Proofs.Header.Contents

/-!
What each step of writing puts in front of a buffer, and how far the buffer grows. Everything that
was there before stays at its place.
-/

namespace SealedContainer.Header.Layout

def Extends (b b' : Layout) (room : Nat) : Prop :=
  ∃ more : Bytes, b' = b.put more ∧ more.length ≤ room

@[simp] theorem size_put (b : Layout) (bytes : Bytes) :
    (b.put bytes).size = bytes.length + b.size := by
  simp [size, put]

theorem put_put (b : Layout) (first second : Bytes) :
    (b.put first).put second = b.put (second ++ first) := by
  simp [put]

namespace Extends

variable {b c d : Layout} {room more : Nat}

theorem put (b : Layout) (bytes : Bytes) : Extends b (b.put bytes) bytes.length :=
  ⟨bytes, rfl, Nat.le_refl _⟩

theorem refl (b : Layout) : Extends b b 0 := ⟨[], rfl, Nat.le_refl 0⟩

theorem trans (first : Extends b c room) (second : Extends c d more) :
    Extends b d (room + more) := by
  rcases first with ⟨x, rfl, small⟩
  rcases second with ⟨y, rfl, little⟩
  refine ⟨y ++ x, put_put b x y, ?_⟩
  rw [List.length_append]
  omega

theorem mono (extended : Extends b c room) (within : room ≤ more) : Extends b c more := by
  rcases extended with ⟨x, same, small⟩
  exact ⟨x, same, Nat.le_trans small within⟩

theorem grown (extended : Extends b c room) : b.bytes <:+ c.bytes := by
  rcases extended with ⟨x, rfl, _⟩
  exact List.suffix_append x b.bytes

theorem size_le (extended : Extends b c room) : b.size ≤ c.size ∧ c.size ≤ b.size + room := by
  rcases extended with ⟨x, rfl, small⟩
  rw [size_put]
  omega

theorem directories (extended : Extends b c room) : c.directories = b.directories := by
  rcases extended with ⟨x, rfl, _⟩
  rfl

theorem storesZeros (extended : Extends b c room) : c.storesZeros = b.storesZeros := by
  rcases extended with ⟨x, rfl, _⟩
  rfl

end Extends

theorem extends_align (b : Layout) (more : Nat) : Extends b (b.align 4 more) 3 := by
  refine ⟨_, rfl, ?_⟩
  rw [List.length_replicate]
  omega

theorem size_align (b : Layout) (more : Nat) : ((b.align 4 more).size + more) % 4 = 0 := by
  rw [align, size_put, List.length_replicate]
  omega

theorem align_of_size (b : Layout) {more : Nat} (fits : (b.size + more) % 4 = 0) :
    b.align 4 more = b := by
  rw [align, fits]
  rfl

theorem putWord_spec (b : Layout) (n : Nat) :
    Extends b (b.putWord n) 7 ∧ (b.putWord n).size % 4 = 0 ∧
      At (b.putWord n).bytes (b.putWord n).size (Bytes.ofNatLE 4 n) := by
  have aligned := size_align b 4
  refine ⟨?_, ?_, ?_⟩
  · refine ((extends_align b 4).trans (Extends.put _ (Bytes.ofNatLE 4 n))).mono ?_
    have word := Bytes.length_ofNatLE 4 n
    omega
  · rw [putWord, size_put, Bytes.length_ofNatLE]
    omega
  · rw [putWord, size_put]
    exact At.head _ _

theorem putRef_spec (b : Layout) (target : Nat) (known : target ≤ b.size) :
    Extends b (b.putRef target) 7 ∧ b.size < (b.putRef target).size ∧
      ((b.putRef target).size < 2 ^ 32 →
        RefAt (b.putRef target).bytes (b.putRef target).size target) := by
  have aligned := size_align b 4
  have before := (extends_align b 4).size_le.1
  have size : (b.putRef target).size = (b.align 4 4).size + 4 := by
    rw [putRef, size_put, Bytes.length_ofNatLE, Nat.add_comm]
  refine ⟨?_, by omega, ?_⟩
  · refine ((extends_align b 4).trans (Extends.put _ (Bytes.ofNatLE 4 _))).mono ?_
    have word := Bytes.length_ofNatLE 4 ((b.align 4 4).size + 4 - target)
    omega
  · intro small
    refine ⟨?_, by omega, by omega, by omega⟩
    have front := At.head (Bytes.ofNatLE 4 ((b.align 4 4).size + 4 - target)) (b.align 4 4).bytes
    rw [size]
    rwa [Bytes.length_ofNatLE, Nat.add_comm 4] at front

theorem putWord_put_align (b : Layout) (x : Bytes) (n : Nat) :
    let c := ((b.align 4 x.length).put x).putWord n
    Extends b c (x.length + 7) ∧ b.size < c.size ∧ c.size % 4 = 0 ∧
      At c.bytes c.size (Bytes.ofNatLE 4 n ++ x) := by
  intro c
  let front := Bytes.ofNatLE 4 n ++ x
  have aligned := size_align b x.length
  have before := (extends_align b x.length).size_le.1
  have length : front.length = 4 + x.length := by
    rw [List.length_append, Bytes.length_ofNatLE]
  have fits : (((b.align 4 x.length).put x).size + 4) % 4 = 0 := by
    rw [size_put]
    omega
  have same : c = (b.align 4 x.length).put front := by
    change (Layout.align _ 4 4).put _ = _
    rw [align_of_size _ fits, put_put]
  have size : c.size = 4 + x.length + (b.align 4 x.length).size := by
    rw [same, size_put, length]
  refine ⟨?_, by omega, by omega, ?_⟩
  · rw [same]
    exact ((extends_align b x.length).trans (Extends.put _ front)).mono (by omega)
  · rw [size, same, ← length]
    exact At.head front (b.align 4 x.length).bytes

theorem putBytes_spec (b : Layout) (content : Bytes) :
    ∃ b' place, b.putBytes content = (b', place) ∧ Extends b b' (content.length + 8) ∧
      b.size < place ∧ place = b'.size ∧
        (place < 2 ^ 32 → BytesAt b'.bytes place content) := by
  rcases putWord_put_align b content content.length with ⟨extended, after, aligned, stored⟩
  have full := stored.length_le
  rw [List.length_append] at full
  exact ⟨_, _, rfl, extended.mono (by omega), after, rfl,
    fun small => ⟨stored, aligned, by omega⟩⟩

theorem putText_spec (b : Layout) (text : String) :
    ∃ b' place, b.putText text = (b', place) ∧
      Extends b b' ((Bytes.ofString text).length + 8) ∧ b.size < place ∧ place = b'.size ∧
        (place < 2 ^ 32 → TextAt b'.bytes place text) := by
  rcases putWord_put_align b (Bytes.ofString text ++ [0]) (Bytes.ofString text).length with
    ⟨extended, after, aligned, stored⟩
  have same : (b.putText text).1 = ((b.align 4 (Bytes.ofString text ++ [0]).length).put
      (Bytes.ofString text ++ [0])).putWord (Bytes.ofString text).length := by
    rw [List.length_append, ← put_put]
    rfl
  rw [← same, List.length_append, List.length_singleton] at extended
  rw [← same] at after aligned stored
  have full := stored.length_le
  rw [List.length_append, List.length_append] at full
  exact ⟨(b.putText text).1, (b.putText text).1.size, rfl, extended.mono (by omega), after, rfl,
    fun small => ⟨stored, aligned, by omega⟩⟩

def RefsAt (h : Bytes) : Nat → List Nat → Prop
  | _, [] => True
  | place, target :: rest => RefAt h place target ∧ RefsAt h (place - 4) rest

theorem RefsAt.mono {h h' : Bytes} {place : Nat} {targets : List Nat}
    (refs : RefsAt h place targets) (grown : h <:+ h') : RefsAt h' place targets := by
  induction targets generalizing place with
  | nil => exact trivial
  | cons target rest ih => exact ⟨refs.1.mono grown, ih refs.2⟩

theorem RefsAt.take {h : Bytes} {place : Nat} {targets : List Nat}
    (refs : RefsAt h place targets) (n : Nat) : RefsAt h place (targets.take n) := by
  induction targets generalizing place n with
  | nil => simp [RefsAt]
  | cons target rest ih =>
      cases n with
      | zero => exact trivial
      | succ n => exact ⟨refs.1, ih refs.2 n⟩

/-- The last reference is written first, so that the first one stands in front. -/
theorem foldl_putRef_spec (b : Layout) (whole : b.size % 4 = 0) (targets : List Nat)
    (known : ∀ target ∈ targets, target ≤ b.size) :
    let c := targets.reverse.foldl putRef b
    Extends b c (7 * targets.length) ∧ c.size = b.size + 4 * targets.length ∧
      (c.size < 2 ^ 32 → RefsAt c.bytes c.size targets) := by
  induction targets with
  | nil => exact ⟨Extends.refl b, rfl, fun _ => trivial⟩
  | cons target rest ih =>
      obtain ⟨extended', size, refs⟩ := ih fun t member =>
        known t (List.mem_cons_of_mem _ member)
      rw [List.reverse_cons, List.foldl_append, List.foldl_cons, List.foldl_nil]
      generalize rest.reverse.foldl putRef b = d at extended' size refs ⊢
      have here := known target (List.mem_cons_self ..)
      rcases putRef_spec d target (by omega) with ⟨extended, _, stored⟩
      have next : (d.putRef target).size = d.size + 4 := by
        rw [putRef, align_of_size d (by omega), size_put, Bytes.length_ofNatLE, Nat.add_comm]
      refine ⟨(extended'.trans extended).mono (by rw [List.length_cons]; omega), ?_, ?_⟩
      · rw [next, size, List.length_cons]
        omega
      · intro small
        refine ⟨stored small, ?_⟩
        rw [next, Nat.add_sub_cancel]
        exact (refs (by omega)).mono extended.grown

theorem putRefs_spec (b : Layout) (targets : List Nat)
    (known : ∀ target ∈ targets, target ≤ b.size) :
    ∃ c place, b.putRefs targets = (c, place) ∧ Extends b c (7 * targets.length + 10) ∧
      place = c.size ∧ place % 4 = 0 ∧ At c.bytes place (Bytes.ofNatLE 4 targets.length) ∧
        4 + 4 * targets.length ≤ place ∧
          (place < 2 ^ 32 → RefsAt c.bytes (place - 4) targets) := by
  have aligned := size_align b (4 * targets.length)
  have padded := extends_align b (4 * targets.length)
  have before := padded.size_le.1
  obtain ⟨extended, size, refs⟩ := foldl_putRef_spec (b.align 4 (4 * targets.length)) (by omega)
    targets fun target member => Nat.le_trans (known target member) before
  rcases putWord_spec (targets.reverse.foldl putRef (b.align 4 (4 * targets.length))) targets.length
    with ⟨counted, wordWhole, count⟩
  have next : ((targets.reverse.foldl putRef (b.align 4 (4 * targets.length))).putWord
      targets.length).size =
      (targets.reverse.foldl putRef (b.align 4 (4 * targets.length))).size + 4 := by
    rw [putWord, align_of_size _ (by omega), size_put, Bytes.length_ofNatLE, Nat.add_comm]
  refine ⟨_, _, rfl, ((padded.trans extended).trans counted).mono (by omega), rfl, wordWhole, count,
    by omega, ?_⟩
  intro small
  rw [next, Nat.add_sub_cancel]
  exact (refs (by omega)).mono counted.grown

def Holds (zeros : Bool) (h : Bytes) (places : List (Nat × Nat)) : Nat × Field → Prop
  | (slot, .byte value) => ByteAt zeros h places slot value
  | (slot, .ref target) => LinkAt h places slot target

/-- Only the slot of a field and what stands in the buffer matter. -/
theorem Holds.transfer {zeros : Bool} {h h' : Bytes} {places places' : List (Nat × Nat)}
    {f : Nat × Field} (held : Holds zeros h places f) (grown : h <:+ h')
    (same : places'.lookup f.1 = places.lookup f.1) : Holds zeros h' places' f := by
  rcases f with ⟨slot, field⟩
  simp only at same
  cases field with
  | byte value =>
      have later : ByteAt zeros h' places slot value := ByteAt.mono held grown
      simp only [Holds, ByteAt, same] at later ⊢
      exact later
  | ref target =>
      have later : LinkAt h' places slot target := LinkAt.mono held grown
      simp only [Holds, LinkAt, same] at later ⊢
      exact later

theorem putField_spec (b : Layout) (places : List (Nat × Nat)) (f : Nat × Field)
    (known : ∀ target, f.2 = .ref target → target ≤ b.size)
    (fresh : places.lookup f.1 = none) :
    ∃ b' new, putField (b, places) f = (b', new ++ places) ∧ Extends b b' 7 ∧
      (b'.size < 2 ^ 32 → Holds b.storesZeros b'.bytes (new ++ places) f) ∧
      (∀ target, f.2 = .ref target → f.1 ∈ new.map Prod.fst) ∧
        ∀ g ∈ new, g.1 = f.1 ∧ b.size < g.2 ∧ g.2 ≤ b'.size := by
  rcases f with ⟨slot, field⟩
  cases field with
  | byte value =>
      by_cases zero : value = 0 ∧ b.storesZeros = false
      · refine ⟨b, [], by simp [putField, zero], (Extends.refl b).mono (by omega), ?_, by simp,
          by simp⟩
        intro _
        rw [Holds, ByteAt, if_pos zero]
        exact fresh
      · refine ⟨b.put [value], [(slot, (b.put [value]).size)], by simp [putField, zero],
          (Extends.put b [value]).mono (by simp), ?_, by simp, ?_⟩
        · intro _
          rw [Holds, ByteAt, if_neg zero]
          exact ⟨_, List.lookup_cons_self, by rw [size_put]; exact At.head [value] b.bytes⟩
        · intro g member
          rw [List.mem_singleton] at member
          subst member
          exact ⟨rfl, by rw [size_put, List.length_singleton]; omega, Nat.le_refl _⟩
  | ref target =>
      rcases putRef_spec b target (known target rfl) with ⟨extended, after, stored⟩
      refine ⟨b.putRef target, [(slot, (b.putRef target).size)], rfl, extended, ?_, by simp, ?_⟩
      · intro small
        exact ⟨_, List.lookup_cons_self, stored small⟩
      · intro g member
        rw [List.mem_singleton] at member
        subst member
        exact ⟨rfl, after, Nat.le_refl _⟩

theorem lookup_append_of_absent {new places : List (Nat × Nat)} {slot : Nat}
    (absent : ∀ g ∈ new, g.1 ≠ slot) : (new ++ places).lookup slot = places.lookup slot := by
  have missing : new.lookup slot = none := by
    rw [List.lookup_eq_none_iff]
    intro g member
    simpa using (absent g member).symm
  rw [List.lookup_append, missing, Option.none_or]

theorem putFields_spec (fields : List (Nat × Field)) (b : Layout) (places : List (Nat × Nat))
    (known : ∀ f ∈ fields, ∀ target, f.2 = .ref target → target ≤ b.size)
    (fresh : ∀ f ∈ fields, places.lookup f.1 = none) (distinct : (fields.map Prod.fst).Nodup) :
    ∃ b' new, fields.foldl putField (b, places) = (b', new ++ places) ∧
      Extends b b' (7 * fields.length) ∧
      (b'.size < 2 ^ 32 → ∀ f ∈ fields, Holds b.storesZeros b'.bytes (new ++ places) f) ∧
      (∀ f ∈ fields, ∀ target, f.2 = .ref target → f.1 ∈ new.map Prod.fst) ∧
        ∀ g ∈ new, g.1 ∈ fields.map Prod.fst ∧ b.size < g.2 ∧ g.2 ≤ b'.size := by
  induction fields generalizing b places with
  | nil => exact ⟨b, [], rfl, Extends.refl b, by simp, by simp, by simp⟩
  | cons f fields ih =>
      rw [List.map_cons, List.nodup_cons] at distinct
      rcases distinct with ⟨alone, others⟩
      rcases putField_spec b places f (known f (List.mem_cons_self ..)) (fresh f (List.mem_cons_self
        ..)) with ⟨c, one, put, extended, held, kept, within⟩
      have grownSize := extended.size_le
      have otherSlot : ∀ g ∈ fields, g.1 ≠ f.1 := by
        intro g member same
        exact alone (same ▸ List.mem_map_of_mem member)
      obtain ⟨d, new, all, further, rest, later, inside⟩ := ih c (one ++ places)
        (fun g member target same =>
          Nat.le_trans (known g (List.mem_cons_of_mem _ member) target same) grownSize.1)
        (fun g member => by
          rw [lookup_append_of_absent fun e there => by
            rw [(within e there).1]
            exact (otherSlot g member).symm]
          exact fresh g (List.mem_cons_of_mem _ member))
        others
      have furtherSize := further.size_le
      refine ⟨d, new ++ one, ?_, ?_, ?_, ?_, ?_⟩
      · rw [List.foldl_cons, put, all, List.append_assoc]
      · exact (extended.trans further).mono (by rw [List.length_cons]; omega)
      · intro small g member
        rw [List.append_assoc]
        rcases List.mem_cons.mp member with rfl | member
        · refine (held (by omega)).transfer further.grown (lookup_append_of_absent ?_)
          intro e there same
          exact alone (same ▸ (inside e there).1)
        · rw [← extended.storesZeros]
          exact rest small g member
      · intro g member target same
        rw [List.map_append, List.mem_append]
        rcases List.mem_cons.mp member with rfl | member
        · exact Or.inr (kept target same)
        · exact Or.inl (later g member target same)
      · intro g member
        rw [List.map_cons]
        rcases List.mem_append.mp member with late | early
        · rcases inside g late with ⟨slot, low, high⟩
          exact ⟨List.mem_cons_of_mem _ slot, by omega, high⟩
        · rcases within g early with ⟨slot, low, high⟩
          exact ⟨by rw [slot]; exact List.mem_cons_self .., low, by omega⟩

/-- Every directory stands at its place, and none is as short as that of a header. -/
def Sound (b : Layout) : Prop :=
  ∀ entry place, (entry, place) ∈ b.directories →
    At b.bytes place entry ∧ place % 2 = 0 ∧ 10 ≤ entry.length

theorem Sound.extend {b c : Layout} {room : Nat} (sound : b.Sound)
    (extended : Extends b c room) : c.Sound := by
  intro entry place member
  rw [extended.directories] at member
  rcases sound entry place member with ⟨stored, even, long⟩
  exact ⟨stored.mono extended.grown, even, long⟩

theorem sound_empty (zeros : Bool) : (empty zeros).Sound := by
  intro entry place member
  cases member

/-- Everything that was in `b` is still there, behind at most `room` bytes. -/
structure Grown (b b' : Layout) (room : Nat) : Prop where
  bytes : b.bytes <:+ b'.bytes
  size : b'.size ≤ b.size + room
  zeros : b'.storesZeros = b.storesZeros

theorem Extends.toGrown {b c : Layout} {room : Nat} (extended : Extends b c room) :
    Grown b c room :=
  ⟨extended.grown, extended.size_le.2, extended.storesZeros⟩

namespace Grown

variable {b c d : Layout} {room more : Nat}

theorem trans (first : Grown b c room) (second : Grown c d more) : Grown b d (room + more) := by
  refine ⟨first.bytes.trans second.bytes, ?_, second.zeros.trans first.zeros⟩
  have near := first.size
  have far := second.size
  omega

theorem mono (grown : Grown b c room) (within : room ≤ more) : Grown b c more :=
  ⟨grown.bytes, Nat.le_trans grown.size (Nat.add_le_add_left within _), grown.zeros⟩

theorem le (grown : Grown b c room) : b.size ≤ c.size := grown.bytes.length_le

end Grown

/-- An earlier directory is at a place behind the table, a new one right in front of it. -/
theorem putStart_spec (b : Layout) (sound : b.Sound) (whole : b.size % 4 = 0) (entry : Bytes)
    (even : entry.length % 2 = 0) :
    ∃ dir, Grown b (b.putStart entry) (4 + entry.length) ∧ b.size + 4 ≤ (b.putStart entry).size ∧
      At (b.putStart entry).bytes dir entry ∧ dir % 2 = 0 ∧
      At (b.putStart entry).bytes (b.size + 4) (Bytes.ofNatLE 4 (2 ^ 32 + dir - (b.size + 4))) ∧
      (10 ≤ entry.length → (b.putStart entry).Sound) ∧
        (dir = b.size + 4 + entry.length ∨ 10 ≤ entry.length ∧ dir ≤ b.size) := by
  cases found : b.directories.lookup entry with
  | some place =>
      rcases List.lookup_eq_some_iff.mp found with ⟨front, back, split, _⟩
      rcases sound entry place (by rw [split]; simp) with ⟨stored, evenPlace, long⟩
      have same : b.putStart entry = b.put (Bytes.ofNatLE 4 (2 ^ 32 + place - (b.size + 4))) := by
        rw [putStart, found]
      have last := Extends.put b (Bytes.ofNatLE 4 (2 ^ 32 + place - (b.size + 4)))
      have top := At.head (Bytes.ofNatLE 4 (2 ^ 32 + place - (b.size + 4))) b.bytes
      rw [Bytes.length_ofNatLE] at last
      rw [Bytes.length_ofNatLE, Nat.add_comm 4] at top
      rw [same]
      refine ⟨place, last.toGrown.mono (by omega), ?_, stored.mono last.grown, evenPlace, top, ?_,
        Or.inr ⟨long, stored.place_le⟩⟩
      · rw [size_put, Bytes.length_ofNatLE]
        omega
      · intro _
        exact sound.extend last
  | none =>
      let c := (b.put (Bytes.ofNatLE 4 entry.length)).put entry
      have same :
          b.putStart entry = { c with directories := (entry, c.size) :: c.directories } := by
        rw [putStart, found]
      have first := Extends.put b (Bytes.ofNatLE 4 entry.length)
      have last := first.trans (Extends.put (b.put (Bytes.ofNatLE 4 entry.length)) entry)
      rw [Bytes.length_ofNatLE] at first last
      have size : c.size = b.size + 4 + entry.length := by
        rw [size_put, size_put, Bytes.length_ofNatLE]
        omega
      have top : At c.bytes c.size entry := by
        rw [size_put]
        exact At.head entry _
      have word := At.head (Bytes.ofNatLE 4 entry.length) b.bytes
      rw [Bytes.length_ofNatLE, Nat.add_comm] at word
      -- Modulo the width of the number, the distance is the length of the directory.
      have distance : Bytes.ofNatLE 4 (2 ^ 32 + c.size - (b.size + 4)) =
          Bytes.ofNatLE 4 entry.length := by
        rw [size, ← Bytes.ofNatLE_mod, ← Bytes.ofNatLE_mod 4 entry.length]
        congr 1
        omega
      rw [same]
      refine ⟨c.size, ⟨last.grown, last.size_le.2, rfl⟩, ?_, top, by omega, ?_, ?_, Or.inl size⟩
      · change b.size + 4 ≤ c.size
        omega
      · rw [distance]
        exact word.mono (List.suffix_append entry _)
      · intro long entry' place member
        rcases List.mem_cons.mp member with equal | earlier
        · rcases Prod.mk.inj equal with ⟨rfl, rfl⟩
          exact ⟨top, by omega, long⟩
        · exact sound.extend last entry' place earlier

/-- Fields that a table can hold, each in its own slot, which refer to places up to `size`. -/
structure Fitted (fields : List (Nat × Field)) (size : Nat) : Prop where
  slotted : ∀ f ∈ fields, Slotted f.1
  few : fields.length ≤ 4
  known : ∀ f ∈ fields, ∀ target, f.2 = .ref target → target ≤ size
  distinct : (fields.map Prod.fst).Nodup

def tablePlaces (b : Layout) (fields : List (Nat × Field)) : List (Nat × Nat) :=
  (fields.foldl putField (b, [])).2

/-- A table with these fields was written. Its directory can be far away, but one that no earlier
table can have left is right in front of it. -/
structure TablePut (b : Layout) (fields : List (Nat × Field)) (b' : Layout) (start dir : Nat)
    (places : List (Nat × Nat)) : Prop where
  laid : places = b.tablePlaces fields
  grown : Grown b b' 50
  after : b.size < start
  inside : start ≤ b'.size
  sound : 10 ≤ width places → b'.Sound
  wide : ∀ f ∈ fields, ∀ target, f.2 = .ref target → f.1 + 2 ≤ width places
  narrow : ∀ reach, 4 ≤ reach → (∀ f ∈ fields, f.1 + 2 ≤ reach) → width places ≤ reach
  absent : ∀ slot, slot ∉ fields.map Prod.fst → places.lookup slot = none
  holds : b'.size < 2 ^ 32 → ∀ f ∈ fields, Holds b.storesZeros b'.bytes places f
  table : b'.size < 2 ^ 31 ∨ width places < 10 → TableAt b'.bytes start dir places

theorem putTable_spec {b : Layout} (sound : b.Sound) {fields : List (Nat × Field)}
    (fitted : Fitted fields b.size) :
    ∃ b' start dir places, b.putTable fields = (b', start) ∧
      TablePut b fields b' start dir places := by
  rcases fitted with ⟨slotted, few, known, distinct⟩
  obtain ⟨c, places, put, extended, held, kept, within⟩ :=
    putFields_spec fields b [] known (by simp) distinct
  rw [List.append_nil] at put held
  have padded := extends_align c 4
  have whole := size_align c 4
  have near := extended.size_le
  have nearer := padded.size_le
  have ownSlot : ∀ g ∈ places, Slotted g.1 := by
    intro g member
    rcases List.mem_map.mp (within g member).1 with ⟨f, there, same⟩
    exact same ▸ slotted f there
  rcases width_spec places ownSlot with ⟨low, high, even, reach⟩
  have length := length_directory places ((c.align 4 4).size + 4)
    ((c.align 4 4).size + 4 - b.size)
  obtain ⟨dir, grown, inside, entry, dirEven, back, safe, spot⟩ :=
    putStart_spec (c.align 4 4) ((sound.extend extended).extend padded) (by omega)
      (directory places ((c.align 4 4).size + 4) ((c.align 4 4).size + 4 - b.size)) (by omega)
  refine ⟨_, (c.align 4 4).size + 4, dir, places, by rw [putTable, put], ?_⟩
  have total := (extended.toGrown.trans padded.toGrown).trans grown
  refine ⟨by rw [tablePlaces, put], total.mono (by omega), by omega, inside,
    fun wide => safe (by omega), ?_, ?_, ?_, ?_, ?_⟩
  · intro f member target same
    rcases List.mem_map.mp (kept f member target same) with ⟨g, there, slot⟩
    exact slot ▸ reach g there
  · intro last four each
    refine width_le four fun g member => ?_
    rcases List.mem_map.mp (within g member).1 with ⟨f, there, same⟩
    exact same ▸ each f there
  · intro slot missing
    rw [List.lookup_eq_none_iff]
    intro g member
    have other : slot ≠ g.1 := fun same => missing (same ▸ (within g member).1)
    simpa using other
  · intro small f member
    exact (held (by omega) f member).transfer (padded.grown.trans grown.bytes) rfl
  · intro close
    refine ⟨⟨_, entry⟩, back, by omega, dirEven, by omega, ownSlot, ?_⟩
    intro g member
    have span := (within g member).2
    omega

end SealedContainer.Header.Layout
