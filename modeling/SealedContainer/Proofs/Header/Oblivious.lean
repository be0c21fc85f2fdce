import Mathlib.Data.List.Forall2
import SealedContainer.Proofs.Header.Layout

/-!
Writing does not look back: what is put in front of a buffer depends on the size of the buffer and
on its directories, but not on its bytes. So a change of some bytes changes the finished buffer
where these bytes stand and nowhere else.
-/

namespace SealedContainer.Header.Layout

variable {α β : Type} {flags : Bool → Prop}

/-- What `f` puts in front of a buffer is the same for all bytes, as many as they are, and whichever
of the flags says whether zeros are stored. -/
def Oblivious (flags : Bool → Prop) (f : Layout → Layout × α) : Prop :=
  ∀ (size : Nat) (directories : List (Bytes × Nat)), ∃ more after a,
    ∀ (bytes : Bytes) (zeros : Bool), flags zeros → bytes.length = size →
      f ⟨bytes, directories, zeros⟩ = (⟨more ++ bytes, after, zeros⟩, a)

theorem Oblivious.bind {f : Layout → Layout × α} {g : α → Layout → Layout × β}
    (first : Oblivious flags f) (next : ∀ a, Oblivious flags (g a)) :
    Oblivious flags fun b => g (f b).2 (f b).1 := by
  intro size directories
  rcases first size directories with ⟨more, after, a, put⟩
  rcases next a (more.length + size) after with ⟨further, last, c, put'⟩
  refine ⟨further ++ more, last, c, ?_⟩
  intro bytes zeros flag same
  have whole : (more ++ bytes).length = more.length + size := by rw [List.length_append, same]
  simp only [put bytes zeros flag same, put' (more ++ bytes) zeros flag whole, List.append_assoc]

theorem oblivious_size (a : Nat → α) : Oblivious flags fun b => (b, a b.size) := by
  intro size directories
  refine ⟨[], directories, a size, ?_⟩
  rintro bytes zeros _ rfl
  rfl

theorem oblivious_put (x : Nat → Bytes) : Oblivious flags fun b => (b.put (x b.size), ()) := by
  intro size directories
  refine ⟨x size, directories, (), ?_⟩
  rintro bytes zeros _ rfl
  rfl

theorem oblivious_align (more : Nat) : Oblivious flags fun b => (b.align 4 more, ()) :=
  oblivious_put fun size => List.replicate ((4 - (size + more) % 4) % 4) 0

theorem oblivious_putWord (n : Nat) : Oblivious flags fun b => (b.putWord n, ()) :=
  (oblivious_align 4).bind fun _ => oblivious_put fun _ => Bytes.ofNatLE 4 n

theorem oblivious_putRef (target : Nat) : Oblivious flags fun b => (b.putRef target, ()) :=
  (oblivious_align 4).bind fun _ => oblivious_put fun size => Bytes.ofNatLE 4 (size + 4 - target)

theorem oblivious_putBytes (content : Bytes) : Oblivious flags fun b => b.putBytes content :=
  (oblivious_align content.length).bind fun _ => (oblivious_put fun _ => content).bind fun _ =>
    (oblivious_putWord content.length).bind fun _ => oblivious_size id

theorem oblivious_foldl_putRef (targets : List Nat) :
    Oblivious flags fun b => (targets.foldl putRef b, ()) := by
  induction targets with
  | nil => exact oblivious_size fun _ => ()
  | cons target rest ih => exact (oblivious_putRef target).bind fun _ => ih

theorem oblivious_putRefs (targets : List Nat) : Oblivious flags fun b => b.putRefs targets :=
  (oblivious_align (4 * targets.length)).bind fun _ =>
    (oblivious_foldl_putRef targets.reverse).bind fun _ =>
      (oblivious_putWord targets.length).bind fun _ => oblivious_size id

def Shown (flags : Bool → Prop) (value : UInt8) : Prop :=
  ∀ zeros, flags zeros → ¬ (value = 0 ∧ zeros = false)

theorem shown_of_ne {value : UInt8} (some : value ≠ 0) : Shown flags value := by
  rintro zeros _ ⟨zero, _⟩
  exact some zero

theorem shown_of_true (value : UInt8) : Shown (· = true) value := by
  rintro _ rfl ⟨_, impossible⟩
  cases impossible

theorem oblivious_putField (places : List (Nat × Nat)) (f : Nat × Field)
    (shown : ∀ value, f.2 = .byte value → Shown flags value) :
    Oblivious flags fun b => putField (b, places) f := by
  rcases f with ⟨slot, field⟩
  cases field with
  | byte value =>
      intro size directories
      refine ⟨[value], directories, (slot, size + 1) :: places, ?_⟩
      rintro bytes zeros flag rfl
      simp only [putField, if_neg (shown value rfl zeros flag)]
      rfl
  | ref target =>
      exact (oblivious_putRef target).bind fun _ =>
        oblivious_size fun size => (slot, size) :: places

theorem oblivious_putFields (fields : List (Nat × Field))
    (shown : ∀ f ∈ fields, ∀ value, f.2 = .byte value → Shown flags value)
    (places : List (Nat × Nat)) : Oblivious flags fun b => fields.foldl putField (b, places) := by
  induction fields generalizing places with
  | nil => exact oblivious_size fun _ => places
  | cons f fields ih =>
      have first := oblivious_putField places f (shown f (List.mem_cons_self ..))
      have rest := ih fun g member => shown g (List.mem_cons_of_mem _ member)
      exact first.bind fun places => rest places

theorem oblivious_putStart (entry : Bytes) : Oblivious flags fun b => (b.putStart entry, ()) := by
  intro size directories
  cases found : directories.lookup entry with
  | some place =>
      refine ⟨Bytes.ofNatLE 4 (2 ^ 32 + place - (size + 4)), directories, (), ?_⟩
      rintro bytes zeros _ rfl
      simp only [putStart, found]
      rfl
  | none =>
      refine ⟨entry ++ Bytes.ofNatLE 4 entry.length,
        (entry, entry.length + (4 + size)) :: directories, (), ?_⟩
      rintro bytes zeros _ rfl
      simp only [putStart, found, size_put, Bytes.length_ofNatLE]
      simp [put, size]

def closeTable (before : Nat) (places : List (Nat × Nat)) (b : Layout) : Layout × Nat :=
  let b := b.align 4 4
  let start := b.size + 4
  (b.putStart (directory places start (start - before)), start)

theorem oblivious_closeTable (before : Nat) (places : List (Nat × Nat)) :
    Oblivious flags (closeTable before places) :=
  (oblivious_align 4).bind fun _ => (oblivious_size (· + 4)).bind fun start =>
    (oblivious_putStart (directory places start (start - before))).bind fun _ =>
      oblivious_size fun _ => start

theorem oblivious_putTable (fields : List (Nat × Field))
    (shown : ∀ f ∈ fields, ∀ value, f.2 = .byte value → Shown flags value) :
    Oblivious flags fun b => b.putTable fields :=
  (oblivious_size id).bind fun before =>
    (oblivious_putFields fields shown []).bind fun places => oblivious_closeTable before places

/-- Buffers that store zeros, between which writing makes no difference. -/
structure Alike (b b' : Layout) : Prop where
  size : b'.size = b.size
  directories : b'.directories = b.directories
  stores : b.storesZeros = true
  stores' : b'.storesZeros = true

namespace Alike

variable {b b' c : Layout}

theorem refl (stores : b.storesZeros = true) : Alike b b := ⟨rfl, rfl, stores, stores⟩

theorem trans (first : Alike b b') (second : Alike b' c) : Alike b c :=
  ⟨second.size.trans first.size, second.directories.trans first.directories, first.stores,
    second.stores'⟩

end Alike

theorem Oblivious.alike {f : Layout → Layout × α} {b b' : Layout}
    (blind : Oblivious (· = true) f) (alike : Alike b b') :
    (f b').2 = (f b).2 ∧ Alike (f b).1 (f b').1 := by
  rcases b with ⟨bytes, entries, zeros⟩
  rcases b' with ⟨bytes', entries', zeros'⟩
  rcases alike with ⟨size, same, stores, stores'⟩
  change entries' = entries at same
  change zeros = true at stores
  change zeros' = true at stores'
  subst same stores stores'
  rcases blind bytes.length entries' with ⟨more, after, a, put⟩
  rw [put bytes true rfl rfl, put bytes' true rfl size]
  refine ⟨rfl, ?_, rfl, rfl, rfl⟩
  change (more ++ bytes').length = (more ++ bytes).length
  rw [List.length_append, List.length_append]
  exact congrArg _ size

/-- `f` puts the bytes that it is given at `place`, and around them the same whatever they are, as
long as there are `size` of them. -/
def Slot (f : Bytes → Layout × α) (size place : Nat) : Prop :=
  ∃ (front back : Bytes) (directories : List (Bytes × Nat)) (a : α),
    place = size + back.length ∧ ∀ x : Bytes, x.length = size →
      f x = (⟨front ++ (x ++ back), directories, true⟩, a)

namespace Slot

variable {f g : Bytes → Layout × α} {size place : Nat}

theorem bind {g : α → Layout → Layout × β} (slot : Slot f size place)
    (next : ∀ a, Oblivious (· = true) (g a)) : Slot (fun x => g (f x).2 (f x).1) size place := by
  rcases slot with ⟨front, back, directories, a, same, put⟩
  rcases next a (front.length + (size + back.length)) directories with ⟨more, after, c, put'⟩
  refine ⟨more ++ front, back, after, c, same, ?_⟩
  intro x full
  have whole : (front ++ (x ++ back)).length = front.length + (size + back.length) := by
    rw [List.length_append, List.length_append, full]
  simp only [put x full, put' _ true rfl whole, List.append_assoc]

theorem congr (slot : Slot f size place) (same : ∀ x : Bytes, x.length = size → g x = f x) :
    Slot g size place := by
  rcases slot with ⟨front, back, directories, a, around, put⟩
  refine ⟨front, back, directories, a, around, ?_⟩
  intro x full
  rw [same x full, put x full]

theorem alike (slot : Slot f size place) {x y : Bytes} (full : x.length = size)
    (full' : y.length = size) : (f y).2 = (f x).2 ∧ Alike (f x).1 (f y).1 := by
  rcases slot with ⟨front, back, directories, a, _, put⟩
  rw [put x full, put y full']
  refine ⟨rfl, ?_, rfl, rfl, rfl⟩
  change (front ++ (y ++ back)).length = (front ++ (x ++ back)).length
  simp only [List.length_append, full, full']

end Slot

theorem slot_put {b : Layout} (stores : b.storesZeros = true) (size : Nat) (a : α) :
    Slot (fun x => (b.put x, a)) size (size + b.size) := by
  refine ⟨[], b.bytes, b.directories, a, rfl, ?_⟩
  intro x _
  rw [← stores]
  rfl

theorem slot_putBytes {b : Layout} (stores : b.storesZeros = true) (content : Bytes) :
    Slot b.putBytes content.length ((b.putBytes content).2 - 4) := by
  have aligned : (b.align 4 content.length).storesZeros = true := stores
  have start := slot_put aligned content.length ()
  have slot := (start.bind fun _ => oblivious_putWord content.length).bind fun _ =>
    oblivious_size id
  have size : (b.putBytes content).2 - 4 = content.length + (b.align 4 content.length).size := by
    have aligned := size_align b content.length
    have fits : (((b.align 4 content.length).put content).size + 4) % 4 = 0 := by
      rw [size_put]
      omega
    change ((((b.align 4 content.length).put content).align 4 4).put _).size - 4 = _
    rw [align_of_size _ fits, size_put, size_put, Bytes.length_ofNatLE]
    omega
  rw [size]
  apply slot.congr
  intro x full
  rw [putBytes, full]
  rfl

theorem alike_putBytes {b b' : Layout} (alike : Alike b b') {x y : Bytes}
    (size : y.length = x.length) :
    (b'.putBytes y).2 = (b.putBytes x).2 ∧ Alike (b.putBytes x).1 (b'.putBytes y).1 := by
  rcases (slot_putBytes alike.stores x).alike rfl size with ⟨place, first⟩
  rcases (oblivious_putBytes y).alike alike with ⟨place', second⟩
  exact ⟨place'.trans place, first.trans second⟩

theorem lookup_putFields {slot : Nat} (fields : List (Nat × Field))
    (absent : slot ∉ fields.map Prod.fst) (b : Layout) (places : List (Nat × Nat)) :
    (fields.foldl putField (b, places)).2.lookup slot = places.lookup slot := by
  induction fields generalizing b places with
  | nil => rfl
  | cons f fields ih =>
      rw [List.map_cons, List.mem_cons, not_or] at absent
      rw [List.foldl_cons]
      refine (ih absent.2 (putField (b, places) f).1 (putField (b, places) f).2).trans ?_
      have other : (slot == f.1) = false := by simpa using absent.1
      rcases f with ⟨slot', value | target⟩
      · simp only [putField]
        split
        · rfl
        · simp only [List.lookup_cons, other]
      · simp only [putField, List.lookup_cons, other]

theorem putField_byte {b : Layout} (stores : b.storesZeros = true) (places : List (Nat × Nat))
    (slot : Nat) (value : UInt8) :
    putField (b, places) (slot, .byte value) = (b.put [value], (slot, 1 + b.size) :: places) := by
  have stored : ¬ (value = 0 ∧ b.storesZeros = false) := by simp [stores]
  simp only [putField, if_neg stored, size_put, List.length_singleton]

theorem slot_putTable {b : Layout} (stores : b.storesZeros = true) (slot : Nat)
    (before behind : List (Nat × Field)) (absent : slot ∉ behind.map Prod.fst) (value : UInt8) :
    ∃ place, (b.tablePlaces (before ++ (slot, .byte value) :: behind)).lookup slot = some place ∧
      Slot (fun x => b.putTable (before ++ (slot, .byte (x.headD 0)) :: behind)) 1 place := by
  let c := (before.foldl putField (b, [])).1
  let places := (before.foldl putField (b, [])).2
  have shown : ∀ fields : List (Nat × Field), ∀ f ∈ fields, ∀ v, f.2 = .byte v →
      Shown (· = true) v := fun _ _ _ v _ => shown_of_true v
  have first : c.storesZeros = true :=
    ((oblivious_putFields before (shown before) []).alike (Alike.refl stores)).2.stores'
  refine ⟨1 + c.size, ?_, ?_⟩
  · rw [tablePlaces, List.foldl_append, List.foldl_cons]
    change (behind.foldl putField (putField (c, places) (slot, .byte value))).2.lookup slot = _
    rw [putField_byte first, lookup_putFields behind absent, List.lookup_cons_self]
  · have start := slot_put first 1 ((slot, 1 + c.size) :: places)
    apply ((start.bind (oblivious_putFields behind (shown behind))).bind
      (oblivious_closeTable b.size)).congr
    intro x full
    have single : [x.headD 0] = x := by
      rcases List.length_eq_one_iff.mp full with ⟨v, rfl⟩
      rfl
    rw [← single, ← putField_byte first]
    change closeTable b.size _ _ = _
    rw [List.foldl_append, List.foldl_cons]
    rfl

inductive FieldAlike : Nat × Field → Nat × Field → Prop where
  | byte {slot : Nat} {value value' : UInt8} : FieldAlike (slot, .byte value) (slot, .byte value')
  | ref {slot target : Nat} : FieldAlike (slot, .ref target) (slot, .ref target)

theorem alike_putFields {fields fields' : List (Nat × Field)}
    (each : List.Forall₂ FieldAlike fields fields') {b b' : Layout} (alike : Alike b b')
    (places : List (Nat × Nat)) :
    (fields'.foldl putField (b', places)).2 = (fields.foldl putField (b, places)).2 ∧
      Alike (fields.foldl putField (b, places)).1 (fields'.foldl putField (b', places)).1 := by
  -- The places are the same after each field, so the next one starts from alike buffers again.
  induction each generalizing b b' places with
  | nil => exact ⟨rfl, alike⟩
  | cons first _ ih =>
      simp only [List.foldl_cons]
      cases first with
      | @byte slot value value' =>
          rw [putField_byte alike.stores, putField_byte alike.stores', alike.size]
          apply ih
          refine ⟨?_, alike.directories, alike.stores, alike.stores'⟩
          rw [size_put, size_put, alike.size]
          rfl
      | @ref slot target =>
          have blind : Oblivious (· = true) fun b => putField (b, places) (slot, .ref target) :=
            oblivious_putField places _ fun _ impossible => Field.noConfusion impossible
          rcases blind.alike alike with ⟨same, next⟩
          rw [← Prod.eta (putField (b', places) (slot, .ref target)),
            ← Prod.eta (putField (b, places) (slot, .ref target)), same]
          exact ih next _

theorem alike_putTable {fields fields' : List (Nat × Field)}
    (each : List.Forall₂ FieldAlike fields fields') {b b' : Layout} (alike : Alike b b') :
    (b'.putTable fields').2 = (b.putTable fields).2 ∧
      Alike (b.putTable fields).1 (b'.putTable fields').1 := by
  rcases alike_putFields each alike [] with ⟨same, next⟩
  have closed := (oblivious_closeTable b.size (fields.foldl putField (b, [])).2).alike next
  have whole : b'.putTable fields' = closeTable b.size (fields.foldl putField (b, [])).2
      (fields'.foldl putField (b', [])).1 := by
    rw [← alike.size, ← same]
    rfl
  rw [whole]
  exact closed

theorem tablePlaces_eq_of_alike {fields fields' : List (Nat × Field)}
    (each : List.Forall₂ FieldAlike fields fields') {b b' : Layout} (alike : Alike b b') :
    b'.tablePlaces fields' = b.tablePlaces fields :=
  (alike_putFields each alike []).1

end SealedContainer.Header.Layout
