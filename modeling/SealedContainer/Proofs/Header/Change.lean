import SealedContainer.Proofs.Header.KeyRecord

/-!
Headers with changed parts. A buffer that differs from a written header only in the bytes of some
parts is what is written for the header with these bytes in those parts.
-/

namespace SealedContainer.Header

open Layout

/-- A header whose records all have keys. -/
structure KeyHeader where
  records : List KeyRecord
  payloadMethod : Int8

namespace KeyHeader

def header (s : KeyHeader) : Header where
  records := some (s.records.map KeyRecord.record)
  payloadMethod := s.payloadMethod

def get? (s : KeyHeader) : Part → Option Bytes
  | .ofRecord i part => s.records[i]?.map fun k => k.get part
  | .payloadMethod => some [s.payloadMethod.toUInt8]

def set (x : Bytes) (s : KeyHeader) : Part → KeyHeader
  | .ofRecord i part => { s with records := s.records.modify i fun k => k.set x part }
  | .payloadMethod => { s with payloadMethod := (x.headD 0).toInt8 }

def sizes (s : KeyHeader) : List (RecordPart → Nat) := s.records.map KeyRecord.sizes

structure Marked (s : KeyHeader) : Prop where
  records : ∀ k ∈ s.records, k.Marked
  payloadMethod : s.payloadMethod.toUInt8 ≠ 0

structure Shown (flags : Bool → Prop) (s : KeyHeader) : Prop where
  records : ∀ k ∈ s.records, k.Shown flags
  payloadMethod : Layout.Shown flags s.payloadMethod.toUInt8

theorem Marked.shown {s : KeyHeader} (marked : s.Marked) (flags : Bool → Prop) : s.Shown flags :=
  ⟨fun k member => (marked.records k member).shown flags, shown_of_ne marked.payloadMethod⟩

theorem get?_ofRecord {s : KeyHeader} {i : Nat} {k : KeyRecord} (there : s.records[i]? = some k)
    (part : RecordPart) : s.get? (.ofRecord i part) = some (k.get part) := by
  rw [get?, there, Option.map_some]

theorem set_of_get? {s : KeyHeader} {part : Part} {x : Bytes} (held : s.get? part = some x) :
    s.set x part = s := by
  cases part with
  | ofRecord i part =>
      simp only [get?, Option.map_eq_some_iff] at held
      rcases held with ⟨k, there, rfl⟩
      have same : s.records.modify i (fun j => j.set (k.get part) part) = s.records := by
        apply List.ext_getElem?
        intro j
        rw [List.getElem?_modify]
        by_cases here : i = j
        · subst here
          simp [there, KeyRecord.set_get]
        · simp [here]
      simp only [set, same]
  | payloadMethod =>
      cases held
      rfl

theorem getElem?_modify_set (ks : List KeyRecord) (i j : Nat) (part : RecordPart) (x : Bytes) :
    (ks.modify i fun k => k.set x part)[j]? =
      ks[j]?.map fun k => if i = j then k.set x part else k := by
  rw [List.getElem?_modify]
  by_cases here : i = j
  · simp [here]
  · simp [here]

theorem get?_set_of_ne {part other : Part} (s : KeyHeader) (x : Bytes) (ne : other ≠ part) :
    (s.set x part).get? other = s.get? other := by
  cases part with
  | payloadMethod =>
      cases other with
      | ofRecord j other => rfl
      | payloadMethod => exact absurd rfl ne
  | ofRecord i part =>
      cases other with
      | payloadMethod => rfl
      | ofRecord j other =>
          simp only [get?, set, getElem?_modify_set, Option.map_map]
          congr 1
          funext k
          by_cases here : i = j
          · subst here
            have distinct : other ≠ part := fun same => ne (congrArg _ same)
            simp only [Function.comp_apply, if_true, KeyRecord.get_set_of_ne x distinct]
          · simp only [Function.comp_apply, if_neg here]

theorem sizes_set {s : KeyHeader} {part : Part} {x y : Bytes} (held : s.get? part = some y)
    (size : x.length = y.length) : (s.set x part).sizes = s.sizes := by
  cases part with
  | payloadMethod => rfl
  | ofRecord i part =>
      simp only [get?, Option.map_eq_some_iff] at held
      rcases held with ⟨k, there, rfl⟩
      apply List.ext_getElem?
      intro j
      simp only [sizes, set, List.getElem?_map, getElem?_modify_set, Option.map_map]
      by_cases here : i = j
      · subst here
        simp only [there, Option.map_some, Function.comp_apply, if_true, KeyRecord.sizes_set size]
      · simp only [Function.comp_def, if_neg here]

variable (order : KeyOrder)

/-! Writing a header: its records in turn, the references to them, its table. -/

def putEach : List KeyRecord → Layout → Layout × List Nat
  | [], b => (b, [])
  | k :: ks, b =>
    ((putEach ks (k.put order b).1).1, (k.put order b).2 :: (putEach ks (k.put order b).1).2)

def rootFields (method : Int8) (list : Nat) : List (Nat × Field) :=
  headerFields ⟨none, method⟩ (some list)

def putRoot (method : Int8) (list : Nat) (b : Layout) : Layout × Unit :=
  ((b.putTable (rootFields method list)).1.putRef (b.putTable (rootFields method list)).2, ())

def putList (method : Int8) (places : List Nat) (b : Layout) : Layout × Unit :=
  putRoot method (b.putRefs places).2 (b.putRefs places).1

def put (s : KeyHeader) (b : Layout) : Layout × Unit :=
  putList s.payloadMethod (putEach order s.records b).2 (putEach order s.records b).1

theorem putRecords?_map (ks : List KeyRecord) (b : Layout) :
    putRecords? order b (ks.map KeyRecord.record) = some (putEach order ks b) := by
  induction ks generalizing b with
  | nil => rfl
  | cons k ks ih =>
      simp only [List.map_cons, putRecords?, KeyRecord.putRecord?_record, Option.bind_eq_bind,
        Option.bind_some, ih]
      rfl

theorem putList?_map (s : KeyHeader) (b : Layout) : putList? order b s.header.records =
    some (((putEach order s.records b).1.putRefs (putEach order s.records b).2).1,
      some ((putEach order s.records b).1.putRefs (putEach order s.records b).2).2) := by
  simp only [header, putList?, putRecords?_map, Option.bind_eq_bind, Option.bind_some]
  rfl

theorem write?_header (zeros : Bool) (s : KeyHeader) :
    write? zeros order s.header = some (s.put order (.empty zeros)).1.bytes := by
  simp only [write?, putList?_map, Option.bind_eq_bind, Option.bind_some]
  rfl

section Shown

variable {flags : Bool → Prop}

theorem oblivious_putRoot {method : Int8} (shown : Layout.Shown flags method.toUInt8) (list : Nat) :
    Oblivious flags (putRoot method list) := by
  have each : ∀ f ∈ rootFields method list, ∀ value, f.2 = .byte value →
      Layout.Shown flags value := by
    intro f member value byte
    rcases mem_headerFields.mp member with ⟨_, _, rfl⟩ | rfl
    · cases byte
    · obtain rfl := Field.byte.inj byte
      exact shown
  exact (oblivious_putTable _ each).bind oblivious_putRef

theorem oblivious_putList {method : Int8} (shown : Layout.Shown flags method.toUInt8)
    (places : List Nat) : Oblivious flags (putList method places) :=
  (oblivious_putRefs places).bind (oblivious_putRoot shown)

theorem oblivious_putEach (ks : List KeyRecord) (shown : ∀ k ∈ ks, k.Shown flags) :
    Oblivious flags (putEach order ks) := by
  induction ks with
  | nil => exact oblivious_size fun _ => []
  | cons k ks ih =>
      have first := KeyRecord.oblivious_put order (shown k (List.mem_cons_self ..))
      have rest := ih fun j member => shown j (List.mem_cons_of_mem _ member)
      exact first.bind fun place => rest.bind fun places => oblivious_size fun _ => place :: places

theorem oblivious_put {s : KeyHeader} (shown : s.Shown flags) : Oblivious flags (s.put order) :=
  (oblivious_putEach order s.records shown.records).bind (oblivious_putList shown.payloadMethod)

end Shown

/-- Whether zeros are stored does not matter where there are none. -/
theorem write?_of_marked {s : KeyHeader} (marked : s.Marked) :
    write? false order s.header = write? true order s.header := by
  rcases oblivious_put order (marked.shown fun _ => True) 0 [] with ⟨more, after, _, put⟩
  rw [write?_header, write?_header, Layout.empty, Layout.empty, put [] false trivial rfl,
    put [] true trivial rfl]

theorem oblivious_each (ks : List KeyRecord) : Oblivious (· = true) (putEach order ks) :=
  oblivious_putEach order ks fun k _ => k.shown_of_true

theorem oblivious_rest (method : Int8) (places : List Nat) :
    Oblivious (· = true) (putList method places) :=
  oblivious_putList (shown_of_true _) places

theorem slot_putEach {part : RecordPart} {size place : Nat} (ks : List KeyRecord) (b : Layout)
    {i : Nat} {k : KeyRecord} (there : ks[i]? = some k)
    (slot : Slot (fun x => (k.set x part).put order (putEach order (ks.take i) b).1) size place) :
    Slot (fun x => putEach order (ks.modify i fun k => k.set x part) b) size place := by
  induction ks generalizing b i with
  | nil => simp at there
  | cons j ks ih =>
      cases i with
      | zero =>
          rw [List.getElem?_cons_zero, Option.some.injEq] at there
          subst there
          apply (slot.bind fun place => (oblivious_each order ks).bind fun places =>
            oblivious_size fun _ => place :: places).congr
          intro x _
          rfl
      | succ i =>
          rw [List.getElem?_cons_succ] at there
          have later := ih (j.put order b).1 there slot
          apply (later.bind fun places => oblivious_size fun _ => (j.put order b).2 :: places).congr
          intro x _
          rfl

def listPut (s : KeyHeader) (b : Layout) : Layout × Nat :=
  (putEach order s.records b).1.putRefs (putEach order s.records b).2

def rootPlaces (s : KeyHeader) (b : Layout) : List (Nat × Nat) :=
  (s.listPut order b).1.tablePlaces (rootFields s.payloadMethod (s.listPut order b).2)

def place (s : KeyHeader) (b : Layout) : Part → Nat
  | .ofRecord i part =>
    (s.records[i]?.map fun k => k.place order (putEach order (s.records.take i) b).1 part).getD 0
  | .payloadMethod => ((s.rootPlaces order b).lookup slots.payloadMethod).getD 0

section Stores

variable {b : Layout} (stores : b.storesZeros = true)

include stores

theorem putEach_stores (ks : List KeyRecord) : (putEach order ks b).1.storesZeros = true :=
  ((oblivious_each order ks).alike (Alike.refl stores)).2.stores

theorem slot_ofRecord {s : KeyHeader} {i : Nat} {k : KeyRecord} (there : s.records[i]? = some k)
    (part : RecordPart) : Slot (fun x => (s.set x (.ofRecord i part)).put order b)
      (k.get part).length (s.place order b (.ofRecord i part)) := by
  have slot := KeyRecord.slot_place (k := k) order
    (putEach_stores order stores (s.records.take i)) part
  have here : s.place order b (.ofRecord i part) =
      k.place order (putEach order (s.records.take i) b).1 part := by
    rw [place, there]
    rfl
  rw [here]
  apply ((slot_putEach order s.records b there slot).bind
    (oblivious_rest s.payloadMethod)).congr
  intro x _
  rfl

theorem slot_payloadMethod (s : KeyHeader) :
    (s.rootPlaces order b).lookup slots.payloadMethod = some (s.place order b .payloadMethod) ∧
      Slot (fun x => (s.set x .payloadMethod).put order b) 1 (s.place order b .payloadMethod) := by
  have before : (s.listPut order b).1.storesZeros = true :=
    ((oblivious_putRefs _).alike (Alike.refl (putEach_stores order stores s.records))).2.stores
  obtain ⟨place, found, slot⟩ := slot_putTable before slots.payloadMethod
    [(slots.records, .ref (s.listPut order b).2)] [] (by simp) s.payloadMethod.toUInt8
  have here : s.place order b .payloadMethod = place := congrArg (·.getD 0) found
  rw [here]
  refine ⟨found, (slot.bind oblivious_putRef).congr ?_⟩
  intro x _
  rfl

/-- Each part of a header has its own place, and only what stands there depends on it. -/
theorem slot_place {s : KeyHeader} {part : Part} {x : Bytes} (held : s.get? part = some x) :
    Slot (fun x => (s.set x part).put order b) x.length (s.place order b part) := by
  cases part with
  | ofRecord i part =>
      simp only [get?, Option.map_eq_some_iff] at held
      rcases held with ⟨k, there, rfl⟩
      exact slot_ofRecord order stores there part
  | payloadMethod =>
      cases held
      exact (slot_payloadMethod order stores s).2

end Stores

section Sized

variable {s s' : KeyHeader} (sized : s'.sizes = s.sizes)

theorem alike_putEach {ks ks' : List KeyRecord}
    (each : ks'.map KeyRecord.sizes = ks.map KeyRecord.sizes) {b b' : Layout}
    (alike : Alike b b') : (putEach order ks' b').2 = (putEach order ks b).2 ∧
      Alike (putEach order ks b).1 (putEach order ks' b').1 := by
  induction ks generalizing ks' b b' with
  | nil =>
      obtain rfl := List.map_eq_nil_iff.mp each
      exact ⟨rfl, alike⟩
  | cons k ks ih =>
      rcases List.map_eq_cons_iff.mp each with ⟨k', ks', rfl, first, rest⟩
      rcases KeyRecord.alike_put order first alike with ⟨place, next⟩
      rcases ih rest next with ⟨places, last⟩
      exact ⟨congrArg₂ List.cons place places, last⟩

include sized

theorem length_eq_of_sizes : s'.records.length = s.records.length := by
  have count := congrArg List.length sized
  rwa [sizes, sizes, List.length_map, List.length_map] at count

theorem weight_eq_of_sizes : s'.header.weight = s.header.weight := by
  have each : s'.records.map (Record.weight ∘ KeyRecord.record) =
      s.records.map (Record.weight ∘ KeyRecord.record) := by
    apply List.ext_getElem?
    intro i
    have entry := congrArg (·[i]?) sized
    simp only [sizes, List.getElem?_map] at entry
    rw [List.getElem?_map, List.getElem?_map]
    cases there : s.records[i]? with
    | none => simpa [there] using entry
    | some k =>
        rw [there, Option.map_some, Option.map_eq_some_iff] at entry
        rcases entry with ⟨k', there', same⟩
        rw [there', Option.map_some, Option.map_some]
        exact congrArg some (KeyRecord.weight_eq_of_sizes same)
  simp only [header, weight, Option.getD_some, List.map_map, each, List.length_map,
    length_eq_of_sizes sized]

theorem get?_of_sizes {part : Part} {x : Bytes} (held : s.get? part = some x) :
    ∃ y, s'.get? part = some y ∧ y.length = x.length := by
  cases part with
  | payloadMethod =>
      cases held
      exact ⟨_, rfl, rfl⟩
  | ofRecord i part =>
      simp only [get?, Option.map_eq_some_iff] at held
      rcases held with ⟨k, there, rfl⟩
      have entry := congrArg (·[i]?) sized
      simp only [sizes, List.getElem?_map, there, Option.map_some, Option.map_eq_some_iff] at entry
      rcases entry with ⟨k', there', same⟩
      exact ⟨k'.get part, get?_ofRecord there' part, congrFun same part⟩

theorem rootPlaces_eq_of_sizes {b b' : Layout} (alike : Alike b b') :
    s'.rootPlaces order b' = s.rootPlaces order b := by
  rcases alike_putEach order sized alike with ⟨places, each⟩
  rcases (oblivious_putRefs (putEach order s.records b).2).alike each with ⟨list, next⟩
  have whole : s'.listPut order b' =
      (putEach order s'.records b').1.putRefs (putEach order s.records b).2 := by
    rw [← places]
    rfl
  rw [rootPlaces, whole, list]
  exact tablePlaces_eq_of_alike (.cons .ref (.cons .byte .nil)) next

theorem place_eq_of_sizes {b b' : Layout} (alike : Alike b b') {part : Part} {x : Bytes}
    (held : s.get? part = some x) : s'.place order b' part = s.place order b part := by
  cases part with
  | payloadMethod =>
      rw [place, place, rootPlaces_eq_of_sizes order sized alike]
  | ofRecord i part =>
      simp only [get?, Option.map_eq_some_iff] at held
      rcases held with ⟨k, there, rfl⟩
      have entry := congrArg (·[i]?) sized
      simp only [sizes, List.getElem?_map, there, Option.map_some, Option.map_eq_some_iff] at entry
      rcases entry with ⟨k', there', same⟩
      have early : (s'.records.take i).map KeyRecord.sizes =
          (s.records.take i).map KeyRecord.sizes := by
        rw [List.map_take, List.map_take]
        exact congrArg _ sized
      have before := (alike_putEach order early alike).2
      simp only [place, there, there', Option.map_some, Option.getD_some]
      exact KeyRecord.place_eq order same before part

end Sized

end KeyHeader

theorem span?_ofRecord {zeros : Bool} {h : Bytes} {places : HeaderPlaces} {header : Header}
    {i : Nat} {p : RecordPlaces} {q : EccPlaces} {k : KeyRecord}
    (at_ : HeaderAt zeros h places header) (known : places.records[i]? = some p)
    (there : (header.records.getD [])[i]? = some k.record) (details : p.details = some q.table)
    (keys : EccAt zeros h q k.curve k.recipient k.sender)
    {part : RecordPart} {place : Nat} (begins : part.place? p q = some place) :
    span? h (.ofRecord i part) = some ⟨h.length - place, (k.get part).length⟩ := by
  rcases recordAt?_of_at at_ known there with ⟨position, record⟩
  have table := detailsAt?_of_at at_ known there details
  rcases record.key with ⟨_, ⟨⟩, key⟩
  cases part with
  | recipient =>
      cases begins
      simp only [span?, table, Option.bind_eq_bind, Option.bind_some]
      exact contentSpan?_of_at keys.table (by decide) keys.toRecipient keys.recipient
  | sender =>
      cases begins
      simp only [span?, table, Option.bind_eq_bind, Option.bind_some]
      exact contentSpan?_of_at keys.table (by decide) keys.toSender keys.sender
  | wrappedKey =>
      cases begins
      simp only [span?, position, Option.bind_eq_bind, Option.bind_some]
      exact contentSpan?_of_at record.table (by decide) record.toKey key
  | detailsType =>
      simp only [span?, position, Option.bind_eq_bind, Option.bind_some]
      exact byteSpan?_of_lookup record.table (by decide) begins
  | curve =>
      simp only [span?, table, Option.bind_eq_bind, Option.bind_some]
      exact byteSpan?_of_lookup keys.table (by decide) begins
  | keyMethod =>
      simp only [span?, position, Option.bind_eq_bind, Option.bind_some]
      exact byteSpan?_of_lookup record.table (by decide) begins

namespace KeyHeader

variable {order : KeyOrder} {s : KeyHeader}

theorem span?_of_written {h : Bytes} {ps : List RecordPlaces}
    (written : Written true order s.header h ps) (small : s.header.weight < 2 ^ 31) {part : Part}
    {x : Bytes} (held : s.get? part = some x) :
    span? h part = some ⟨h.length - s.place order (.empty true) part, x.length⟩ := by
  have short := written.short
  have count : ps.take (s.header.records.getD []).length = ps := by
    rw [← written.length_eq, List.take_length]
  obtain ⟨places, at_, known, c, listed, fields⟩ := written.stored (by omega) _ (Nat.le_refl _)
    (written.records_take _ (by
      rw [List.take_length]
      unfold weight at small
      omega))
  rw [count] at known
  cases part with
  | payloadMethod =>
      cases held
      rw [putList?_map, Option.some.injEq, Prod.mk.injEq] at listed
      rcases listed with ⟨rfl, list⟩
      rw [← list] at fields
      rcases slot_payloadMethod (b := .empty true) order rfl s with ⟨found, _⟩
      have there : places.fields.lookup slots.payloadMethod =
          some (s.place order (.empty true) .payloadMethod) := by
        rw [fields]
        exact found
      simp only [span?, rootAt?_of_at at_, Option.bind_eq_bind, Option.bind_some]
      exact byteSpan?_of_lookup at_.table (by decide) there
  | ofRecord i part =>
      simp only [get?, Option.map_eq_some_iff] at held
      rcases held with ⟨k, there, rfl⟩
      rcases written.each with ⟨b, each, inside, _⟩
      have record : (s.header.records.getD [])[i]? = some k.record := by
        simp [header, there]
      rcases each.get record with ⟨d, e, p, own, put, before, within⟩
      have buffer : d = (putEach order (s.records.take i) (.empty true)).1 := by
        have earlier := before.put
        simp only [header, Option.getD_some] at earlier
        rw [← List.map_take, putRecords?_map, Option.some.injEq] at earlier
        rw [earlier]
      rcases k.exists_place order d (before.sound (sound_empty true)) before.grown.zeros put with
        ⟨q, details, keys, begins⟩
      rw [buffer] at begins
      have suffix := within.trans inside
      have reach := suffix.length_le
      have here : s.place order (.empty true) (.ofRecord i part) =
          k.place order (putEach order (s.records.take i) (.empty true)).1 part := by
        rw [place, there]
        rfl
      rw [← known] at own
      rw [here]
      exact span?_ofRecord at_ own record details
        ((keys (by unfold Layout.size; omega)).mono suffix) (begins part)

theorem storable_header (s : KeyHeader) :
    ∀ rs, s.header.records = some rs → ∀ r ∈ rs, r.Storable true := by
  rintro _ ⟨⟩ r member
  rcases List.mem_map.mp member with ⟨k, _, rfl⟩
  exact k.storable_record

section Put

variable {h : Bytes} (put : write? true order s.header = some h)
  (small : s.header.weight < 2 ^ 31)

include put small

theorem span?_of_write? {part : Part} {x : Bytes} (held : s.get? part = some x) :
    span? h part = some ⟨h.length - s.place order (.empty true) part, x.length⟩ := by
  rcases write?_spec true order s.header (fun rs there r member =>
    (storable_header s rs there r member).toComplete) with ⟨h', ps, written⟩
  have same := put.symm.trans written.put
  rw [Option.some.injEq] at same
  subst same
  exact span?_of_written written small held

/-- A buffer that differs in the bytes of one part is the header with what it has there instead. -/
theorem write?_set_of_only {part : Part} {x : Bytes} (held : s.get? part = some x) {span : Span}
    (found : span? h part = some span) : span.of h = x ∧ ∀ h', span.Only h h' →
      (span.of h').length = x.length ∧
        write? true order (s.set (span.of h') part).header = some h' := by
  rcases slot_place (b := .empty true) order rfl held with ⟨front, back, entries, a, same, laid⟩
  have whole : h = front ++ (x ++ back) := by
    have first := laid x rfl
    simp only [set_of_get? held] at first
    rw [write?_header, first, Option.some.injEq] at put
    exact put.symm
  rw [span?_of_write? put small held, Option.some.injEq] at found
  subst found
  have start : h.length - s.place order (.empty true) part = front.length := by
    rw [whole, same]
    simp only [List.length_append]
    omega
  constructor
  · rw [Span.of, start, whole, List.drop_left, List.take_left]
  · intro h' only
    rw [whole] at only
    rcases Span.Only.eq_append _ (by rw [← whole, start]) rfl only with ⟨split, size⟩
    rw [← whole] at split size
    refine ⟨size, ?_⟩
    have other := congrArg (fun state => some state.1.bytes) (laid _ size)
    rw [write?_header]
    exact other.trans (congrArg some split.symm)

end Put

theorem span?_eq_of_sizes {s' : KeyHeader} {h h' : Bytes} (sized : s'.sizes = s.sizes)
    (put : write? true order s.header = some h) (put' : write? true order s'.header = some h')
    (small : s.header.weight < 2 ^ 31) (length : h'.length = h.length) {part : Part} {x : Bytes}
    (held : s.get? part = some x) : span? h' part = span? h part := by
  rcases get?_of_sizes sized held with ⟨y, held', size⟩
  have small' : s'.header.weight < 2 ^ 31 := by rwa [weight_eq_of_sizes sized]
  rw [span?_of_write? put small held, span?_of_write? put' small' held', length, size,
    place_eq_of_sizes order sized (Alike.refl rfl) held]

/-- A buffer that differs in the bytes of some parts is a header of the same shape, in which the
other parts are as they were. -/
theorem exists_confined {order : KeyOrder} {h h' : Bytes} (parts : List Part)
    (put : write? true order s.header = some h) (small : s.header.weight < 2 ^ 31)
    (known : ∀ part ∈ parts, ∃ x, s.get? part = some x) (confined : Confined parts h h') :
    ∃ s' : KeyHeader, write? true order s'.header = some h' ∧ s'.sizes = s.sizes ∧
      ∀ part, part ∉ parts → s'.get? part = s.get? part := by
  induction parts generalizing s h with
  | nil =>
      have same : h' = h := by
        apply List.ext_getElem?
        intro i
        exact confined.2 i (by simp)
      exact ⟨s, same ▸ put, rfl, fun _ _ => rfl⟩
  | cons part parts ih =>
      rcases known part (List.mem_cons_self ..) with ⟨x, held⟩
      have found := span?_of_write? put small held
      rcases write?_set_of_only put small held found with ⟨_, changed⟩
      generalize (Span.mk _ _) = span at found changed
      -- The bytes of the first part are laid over `h` alone. This moves no other part, so what is
      -- left to change is confined to the others.
      have only := span.only_patch h h'
      rcases changed _ only with ⟨size, next⟩
      have sized := sizes_set held size
      have rest : Confined parts (span.patch h h') h' := by
        refine ⟨confined.1.trans only.1.symm, ?_⟩
        intro i free
        by_cases inside : span.Covers i
        · exact (span.getElem?_patch confined.1 inside).symm
        · rw [only.2 i inside]
          apply confined.2 i
          intro other member span' there
          rcases List.mem_cons.mp member with rfl | later
          · rw [found, Option.some.injEq] at there
            rwa [← there]
          · rcases known other member with ⟨y, holds⟩
            apply free other later
            rw [span?_eq_of_sizes sized put next small only.1 holds, there]
      obtain ⟨s', put', sized', kept⟩ := ih next (by rwa [weight_eq_of_sizes sized]) (by
        intro other later
        rcases known other (List.mem_cons_of_mem _ later) with ⟨y, holds⟩
        rcases get?_of_sizes sized holds with ⟨z, holds', _⟩
        exact ⟨z, holds'⟩) rest
      refine ⟨s', put', sized'.trans sized, ?_⟩
      intro other absent
      rw [List.mem_cons, not_or] at absent
      exact (kept other absent.2).trans (get?_set_of_ne s _ absent.1)

theorem tables_le (s : KeyHeader) : s.header.tables ≤ 1 + 2 * s.records.length := by
  have sum : ∀ ks : List KeyRecord,
      ((ks.map KeyRecord.record).map Record.tables).sum ≤ 2 * ks.length := by
    intro ks
    induction ks with
    | nil => exact Nat.le_refl 0
    | cons k ks ih =>
        have first : k.record.tables ≤ 2 := by
          unfold Record.tables
          split <;> omega
        simp only [List.map_cons, List.sum_cons, List.length_cons]
        omega
  exact Nat.add_le_add_left (sum s.records) 1

theorem tables_eq (keys : ∀ k ∈ s.records, k.detailsType = 1) :
    s.header.tables = 1 + 2 * s.records.length := by
  have each : (s.records.map KeyRecord.record).map Record.tables = s.records.map fun _ => 2 := by
    rw [List.map_map]
    apply List.map_congr_left
    intro k member
    simp [Record.tables, Record.seen, KeyRecord.record, keys k member]
  have all : s.header.records.getD [] = s.records.map KeyRecord.record := rfl
  rw [tables, all, each, List.map_const', List.sum_replicate_nat, Nat.mul_comm]

theorem fitting_header (keys : ∀ k ∈ s.records, k.detailsType ≠ 2) :
    ∀ rs, s.header.records = some rs → ∀ r ∈ rs, r.Fitting := by
  rintro _ ⟨⟩ r member
  rcases List.mem_map.mp member with ⟨k, there, rfl⟩
  exact KeyRecord.fitting_record (keys k there)

section Opened

variable {h : Bytes} (put : write? true order s.header = some h)
  (weight : s.header.weight ≤ Verify.maxSize) (keys : ∀ k ∈ s.records, k.detailsType ≠ 2)

include put weight keys

theorem ofBytes?_header (tables : 1 + 2 * s.records.length ≤ Verify.maxTables) :
    ofBytes? h = some s.header.seen := by
  have few := tables_le s
  exact ofBytes?_of_write? put (storable_header s) (fitting_header keys) weight (by omega)

theorem ofBytes?_header_of_many (many : Verify.maxTables < s.header.tables) :
    ofBytes? h = none := by
  have refused : ¬ verified h = true := by
    rw [verified_of_write? put (storable_header s) (fitting_header keys) weight]
    omega
  rw [ofBytes?, if_neg refused]

end Opened

end KeyHeader

end SealedContainer.Header
