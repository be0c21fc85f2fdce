import SealedContainer.Proofs.Header.Oblivious
import SealedContainer.Proofs.Header.Part
import SealedContainer.Proofs.Header.Written

/-!
Records with one changed part. Where zeros are stored, the sizes of the parts alone decide what is
written where, so a part of a record has its own place in the buffer whatever it holds.
-/

namespace SealedContainer.Header

open Layout

structure KeyRecord where
  detailsType : UInt8
  curve : Int8
  recipient : Bytes
  sender : Bytes
  wrappedKey : Bytes
  keyMethod : Int8

namespace KeyRecord

def record (k : KeyRecord) : Record where
  detailsType := k.detailsType
  details := some (.ecc ⟨k.curve, some k.recipient, some k.sender⟩)
  wrappedKey := some k.wrappedKey
  keyMethod := k.keyMethod

def get (k : KeyRecord) : RecordPart → Bytes
  | .recipient => k.recipient
  | .sender => k.sender
  | .wrappedKey => k.wrappedKey
  | .detailsType => [k.detailsType]
  | .curve => [k.curve.toUInt8]
  | .keyMethod => [k.keyMethod.toUInt8]

def set (x : Bytes) (k : KeyRecord) : RecordPart → KeyRecord
  | .recipient => { k with recipient := x }
  | .sender => { k with sender := x }
  | .wrappedKey => { k with wrappedKey := x }
  | .detailsType => { k with detailsType := x.headD 0 }
  | .curve => { k with curve := (x.headD 0).toInt8 }
  | .keyMethod => { k with keyMethod := (x.headD 0).toInt8 }

structure Marked (k : KeyRecord) : Prop where
  detailsType : k.detailsType ≠ 0
  curve : k.curve.toUInt8 ≠ 0
  keyMethod : k.keyMethod.toUInt8 ≠ 0

/-- Each byte is written, whichever of the flags there is. -/
structure Shown (flags : Bool → Prop) (k : KeyRecord) : Prop where
  detailsType : Layout.Shown flags k.detailsType
  curve : Layout.Shown flags k.curve.toUInt8
  keyMethod : Layout.Shown flags k.keyMethod.toUInt8

theorem Marked.shown {k : KeyRecord} (marked : k.Marked) (flags : Bool → Prop) : k.Shown flags :=
  ⟨shown_of_ne marked.detailsType, shown_of_ne marked.curve, shown_of_ne marked.keyMethod⟩

theorem shown_of_true (k : KeyRecord) : k.Shown (· = true) :=
  ⟨Layout.shown_of_true _, Layout.shown_of_true _, Layout.shown_of_true _⟩

def sizes (k : KeyRecord) (part : RecordPart) : Nat := (k.get part).length

theorem storable_record (k : KeyRecord) : k.record.Storable true := by
  refine ⟨⟨rfl, ?_⟩, by simp [Record.Paired, record]⟩
  rintro d ⟨⟩
  exact ⟨rfl, rfl⟩

theorem fitting_record {k : KeyRecord} (other : k.detailsType ≠ 2) : k.record.Fitting :=
  ⟨fun _ _ _ => rfl, fun two => absurd two other⟩

theorem set_get (k : KeyRecord) (part : RecordPart) : k.set (k.get part) part = k := by
  cases part <;> rfl

theorem get_set_self {k : KeyRecord} {part : RecordPart} {x : Bytes}
    (size : x.length = (k.get part).length) : (k.set x part).get part = x := by
  cases part with
  | recipient | sender | wrappedKey => rfl
  | detailsType | curve | keyMethod =>
      rcases List.length_eq_one_iff.mp size with ⟨value, rfl⟩
      simp [set, get]

theorem get_set_of_ne {k : KeyRecord} {part other : RecordPart} (x : Bytes)
    (ne : other ≠ part) : (k.set x part).get other = k.get other := by
  cases part <;> cases other <;> first | rfl | exact absurd rfl ne

theorem sizes_set {k : KeyRecord} {part : RecordPart} {x : Bytes}
    (size : x.length = (k.get part).length) : (k.set x part).sizes = k.sizes := by
  funext other
  by_cases same : other = part
  · subst same
    rw [sizes, get_set_self size, size, sizes]
  · rw [sizes, get_set_of_ne x same, sizes]

theorem weight_eq_of_sizes {k k' : KeyRecord} (sized : k'.sizes = k.sizes) :
    k'.record.weight = k.record.weight := by
  have recipient : k'.recipient.length = k.recipient.length := congrFun sized .recipient
  have sender : k'.sender.length = k.sender.length := congrFun sized .sender
  have wrapped : k'.wrappedKey.length = k.wrappedKey.length := congrFun sized .wrappedKey
  simp [record, Record.weight, Details.weight, recipient, sender, wrapped]

variable (order : KeyOrder) (k : KeyRecord) (b : Layout)

/-! Writing a record comes in four steps, each of which is followed by the next. -/

def putKey (details : Nat) (b : Layout) : Layout × Nat :=
  (b.putBytes k.wrappedKey).1.putTable
    (recordFields k.record (some details) (b.putBytes k.wrappedKey).2)

def keyFields (recipient sender : Nat) : List (Nat × Field) :=
  eccFields order ⟨k.curve, none, none⟩ recipient sender

def putDetails (recipient sender : Nat) (b : Layout) : Layout × Nat :=
  k.putKey (b.putTable (k.keyFields order recipient sender)).2
    (b.putTable (k.keyFields order recipient sender)).1

def putSender (recipient : Nat) (b : Layout) : Layout × Nat :=
  k.putDetails order recipient (b.putBytes k.sender).2 (b.putBytes k.sender).1

def put (b : Layout) : Layout × Nat :=
  k.putSender order (b.putBytes k.recipient).2 (b.putBytes k.recipient).1

def keysPut (b : Layout) : Layout := ((b.putBytes k.recipient).1.putBytes k.sender).1

def keyPlaces (b : Layout) : List (Nat × Nat) :=
  (k.keysPut b).tablePlaces (k.keyFields order (b.putBytes k.recipient).2
    ((b.putBytes k.recipient).1.putBytes k.sender).2)

def detailsPut (b : Layout) : Layout × Nat :=
  (k.keysPut b).putTable (k.keyFields order (b.putBytes k.recipient).2
    ((b.putBytes k.recipient).1.putBytes k.sender).2)

def wrappedPut (b : Layout) : Layout × Nat := (k.detailsPut order b).1.putBytes k.wrappedKey

def recordPlaces (b : Layout) : List (Nat × Nat) :=
  (k.wrappedPut order b).1.tablePlaces
    (recordFields k.record (some (k.detailsPut order b).2) (k.wrappedPut order b).2)

def place (b : Layout) : RecordPart → Nat
  | .recipient => (b.putBytes k.recipient).2 - 4
  | .sender => ((b.putBytes k.recipient).1.putBytes k.sender).2 - 4
  | .wrappedKey => (k.wrappedPut order b).2 - 4
  | .detailsType => ((k.recordPlaces order b).lookup slots.detailsType).getD 0
  | .curve => ((k.keyPlaces order b).lookup slots.curve).getD 0
  | .keyMethod => ((k.recordPlaces order b).lookup slots.keyMethod).getD 0

theorem putRecord?_record : putRecord? order b k.record = some (k.put order b) := rfl

section Shown

variable {k} {flags : Bool → Prop} (shown : k.Shown flags)

include shown

theorem shown_keyFields (recipient sender : Nat) :
    ∀ f ∈ k.keyFields order recipient sender, ∀ value, f.2 = .byte value →
      Layout.Shown flags value := by
  intro f member value byte
  rcases mem_eccFields.mp member with rfl | rfl | rfl
  · obtain rfl := Field.byte.inj byte
    exact shown.curve
  · cases byte
  · cases byte

theorem shown_recordFields (details key : Nat) :
    ∀ f ∈ recordFields k.record (some details) key, ∀ value, f.2 = .byte value →
      Layout.Shown flags value := by
  intro f member value byte
  rcases mem_recordFields.mp member with rfl | ⟨_, _, rfl⟩ | rfl | rfl
  · obtain rfl := Field.byte.inj byte
    exact shown.detailsType
  · cases byte
  · cases byte
  · obtain rfl := Field.byte.inj byte
    exact shown.keyMethod

theorem oblivious_putKey (details : Nat) : Oblivious flags (k.putKey details) :=
  (oblivious_putBytes k.wrappedKey).bind fun key =>
    oblivious_putTable _ (shown_recordFields shown details key)

theorem oblivious_putDetails (recipient sender : Nat) :
    Oblivious flags (k.putDetails order recipient sender) :=
  (oblivious_putTable _ (shown_keyFields order shown recipient sender)).bind
    (oblivious_putKey shown)

theorem oblivious_putSender (recipient : Nat) : Oblivious flags (k.putSender order recipient) :=
  (oblivious_putBytes k.sender).bind (oblivious_putDetails order shown recipient)

theorem oblivious_put : Oblivious flags (k.put order) :=
  (oblivious_putBytes k.recipient).bind (oblivious_putSender order shown)

end Shown

section Stores

variable {k b} (stores : b.storesZeros = true)

include stores

theorem keysPut_stores : (k.keysPut b).storesZeros = true := stores

theorem detailsPut_stores : (k.detailsPut order b).1.storesZeros = true := by
  have blind := oblivious_putTable _ (shown_keyFields order (shown_of_true k)
    (b.putBytes k.recipient).2 ((b.putBytes k.recipient).1.putBytes k.sender).2)
  exact (blind.alike (Alike.refl (keysPut_stores stores))).2.stores

theorem slot_recipient :
    Slot (fun x => (k.set x .recipient).put order b) k.recipient.length
      (k.place order b .recipient) :=
  (slot_putBytes stores k.recipient).bind (oblivious_putSender order (shown_of_true k))

theorem slot_sender :
    Slot (fun x => (k.set x .sender).put order b) k.sender.length (k.place order b .sender) := by
  have before : (b.putBytes k.recipient).1.storesZeros = true := stores
  have slot := (slot_putBytes before k.sender).bind
    (oblivious_putDetails order (shown_of_true k) (b.putBytes k.recipient).2)
  apply slot.congr
  intro x _
  rfl

theorem slot_wrappedKey :
    Slot (fun x => (k.set x .wrappedKey).put order b) k.wrappedKey.length
      (k.place order b .wrappedKey) := by
  have before := detailsPut_stores (k := k) order stores
  have slot := (slot_putBytes before k.wrappedKey).bind fun key =>
    oblivious_putTable _ (shown_recordFields (shown_of_true k) (k.detailsPut order b).2 key)
  apply slot.congr
  intro x _
  rfl

theorem slot_curve :
    (k.keyPlaces order b).lookup slots.curve = some (k.place order b .curve) ∧
      Slot (fun x => (k.set x .curve).put order b) 1 (k.place order b .curve) := by
  cases order with
  | curveFirst =>
      obtain ⟨place, found, slot⟩ := slot_putTable (keysPut_stores (k := k) stores) slots.curve []
        [(slots.recipient, .ref (b.putBytes k.recipient).2),
          (slots.sender, .ref ((b.putBytes k.recipient).1.putBytes k.sender).2)]
        (by simp [slots]) k.curve.toUInt8
      have here : k.place .curveFirst b .curve = place := congrArg (·.getD 0) found
      rw [here]
      refine ⟨found, (slot.bind (oblivious_putKey (shown_of_true k))).congr ?_⟩
      intro x _
      rfl
  | curveLast =>
      obtain ⟨place, found, slot⟩ := slot_putTable (keysPut_stores (k := k) stores) slots.curve
        [(slots.sender, .ref ((b.putBytes k.recipient).1.putBytes k.sender).2),
          (slots.recipient, .ref (b.putBytes k.recipient).2)] []
        (by simp) k.curve.toUInt8
      have here : k.place .curveLast b .curve = place := congrArg (·.getD 0) found
      rw [here]
      refine ⟨found, (slot.bind (oblivious_putKey (shown_of_true k))).congr ?_⟩
      intro x _
      rfl

theorem wrappedPut_stores : (k.wrappedPut order b).1.storesZeros = true :=
  detailsPut_stores order stores

theorem slot_detailsType :
    (k.recordPlaces order b).lookup slots.detailsType = some (k.place order b .detailsType) ∧
      Slot (fun x => (k.set x .detailsType).put order b) 1 (k.place order b .detailsType) := by
  obtain ⟨place, found, slot⟩ := slot_putTable (wrappedPut_stores (k := k) order stores)
    slots.detailsType []
    [(slots.details, .ref (k.detailsPut order b).2),
      (slots.wrappedKey, .ref (k.wrappedPut order b).2),
      (slots.keyMethod, .byte k.keyMethod.toUInt8)]
    (by simp [slots]) k.detailsType
  have here : k.place order b .detailsType = place := congrArg (·.getD 0) found
  rw [here]
  refine ⟨found, slot.congr ?_⟩
  intro x _
  rfl

theorem slot_keyMethod :
    (k.recordPlaces order b).lookup slots.keyMethod = some (k.place order b .keyMethod) ∧
      Slot (fun x => (k.set x .keyMethod).put order b) 1 (k.place order b .keyMethod) := by
  obtain ⟨place, found, slot⟩ := slot_putTable (wrappedPut_stores (k := k) order stores)
    slots.keyMethod
    [(slots.detailsType, .byte k.detailsType), (slots.details, .ref (k.detailsPut order b).2),
      (slots.wrappedKey, .ref (k.wrappedPut order b).2)] []
    (by simp) k.keyMethod.toUInt8
  have here : k.place order b .keyMethod = place := congrArg (·.getD 0) found
  rw [here]
  refine ⟨found, slot.congr ?_⟩
  intro x _
  rfl

theorem slot_place (part : RecordPart) :
    Slot (fun x => (k.set x part).put order b) (k.get part).length (k.place order b part) := by
  cases part with
  | recipient => exact slot_recipient order stores
  | sender => exact slot_sender order stores
  | wrappedKey => exact slot_wrappedKey order stores
  | detailsType => exact (slot_detailsType order stores).2
  | curve => exact (slot_curve order stores).2
  | keyMethod => exact (slot_keyMethod order stores).2

end Stores

section Sized

variable {k} {k' : KeyRecord} {b b' : Layout} (sized : k'.sizes = k.sizes) (alike : Alike b b')

theorem fieldAlike_keyFields (k k' : KeyRecord) (recipient sender : Nat) :
    List.Forall₂ FieldAlike (k.keyFields order recipient sender)
      (k'.keyFields order recipient sender) := by
  cases order with
  | curveFirst => exact .cons .byte (.cons .ref (.cons .ref .nil))
  | curveLast => exact .cons .ref (.cons .ref (.cons .byte .nil))

theorem fieldAlike_recordFields (k k' : KeyRecord) (details key : Nat) :
    List.Forall₂ FieldAlike (recordFields k.record (some details) key)
      (recordFields k'.record (some details) key) :=
  .cons .byte (.cons .ref (.cons .ref (.cons .byte .nil)))

include sized alike

theorem alike_keysPut : (b'.putBytes k'.recipient).2 = (b.putBytes k.recipient).2 ∧
    ((b'.putBytes k'.recipient).1.putBytes k'.sender).2 =
      ((b.putBytes k.recipient).1.putBytes k.sender).2 ∧
    Alike (k.keysPut b) (k'.keysPut b') := by
  rcases alike_putBytes alike (congrFun sized .recipient) with ⟨recipient, first⟩
  rcases alike_putBytes first (congrFun sized .sender) with ⟨sender, second⟩
  exact ⟨recipient, sender, second⟩

theorem keyPlaces_eq : k'.keyPlaces order b' = k.keyPlaces order b := by
  rcases alike_keysPut sized alike with ⟨recipient, sender, keys⟩
  rw [keyPlaces, recipient, sender]
  exact tablePlaces_eq_of_alike (fieldAlike_keyFields order k k' _ _) keys

theorem alike_detailsPut : (k'.detailsPut order b').2 = (k.detailsPut order b).2 ∧
    Alike (k.detailsPut order b).1 (k'.detailsPut order b').1 := by
  rcases alike_keysPut sized alike with ⟨recipient, sender, keys⟩
  rw [detailsPut, recipient, sender]
  exact alike_putTable (fieldAlike_keyFields order k k' _ _) keys

theorem alike_wrappedPut : (k'.wrappedPut order b').2 = (k.wrappedPut order b).2 ∧
    Alike (k.wrappedPut order b).1 (k'.wrappedPut order b').1 :=
  alike_putBytes (alike_detailsPut order sized alike).2 (congrFun sized .wrappedKey)

theorem recordPlaces_eq : k'.recordPlaces order b' = k.recordPlaces order b := by
  rcases alike_wrappedPut order sized alike with ⟨key, wrapped⟩
  rw [recordPlaces, (alike_detailsPut order sized alike).1, key]
  exact tablePlaces_eq_of_alike (fieldAlike_recordFields k k' _ _) wrapped

/-- What is written for records with parts of the same sizes differs in these parts only. -/
theorem alike_put : (k'.put order b').2 = (k.put order b).2 ∧
    Alike (k.put order b).1 (k'.put order b').1 := by
  rcases alike_wrappedPut order sized alike with ⟨key, wrapped⟩
  have table := alike_putTable (fieldAlike_recordFields k k' (k.detailsPut order b).2
    (k.wrappedPut order b).2) wrapped
  have whole : k'.put order b' = (k'.wrappedPut order b').1.putTable
      (recordFields k'.record (some (k.detailsPut order b).2) (k.wrappedPut order b).2) := by
    rw [← (alike_detailsPut order sized alike).1, ← key]
    rfl
  rw [whole]
  exact table

theorem place_eq (part : RecordPart) : k'.place order b' part = k.place order b part := by
  rcases alike_keysPut sized alike with ⟨recipient, sender, _⟩
  cases part with
  | recipient => exact congrArg (· - 4) recipient
  | sender => exact congrArg (· - 4) sender
  | wrappedKey => exact congrArg (· - 4) (alike_wrappedPut order sized alike).1
  | curve => rw [place, place, keyPlaces_eq order sized alike]
  | detailsType | keyMethod => rw [place, place, recordPlaces_eq order sized alike]

end Sized

theorem exists_place {b' : Layout} {p : RecordPlaces} (sound : b.Sound)
    (stores : b.storesZeros = true) (written : RecordPut order b k.record b' p) :
    ∃ q, p.details = some q.table ∧
      (b'.size < 2 ^ 31 → EccAt true b'.bytes q k.curve k.recipient k.sender) ∧
        ∀ part : RecordPart, part.place? p q = some (k.place order b part) := by
  rcases written.laid with ⟨c, _, optional, ⟨⟩, grown, key, fields⟩
  rcases putEcc?_spec order sound k.curve k.recipient k.sender with ⟨c', q, keys⟩
  have table : k.detailsPut order b = (c', q.table) := Option.some.inj keys.put
  have same : putOptional? order b k.record.details = some (c', some q.table) := by
    simp only [record, putOptional?, putDetails?, keys.put, Option.bind_eq_bind, Option.bind_some]
    rfl
  rw [same, Option.some.injEq, Prod.mk.injEq] at optional
  rcases optional with ⟨rfl, details⟩
  have wrapped : k.wrappedPut order b = c'.putBytes k.wrappedKey := by rw [wrappedPut, table]
  have places : p.fields = k.recordPlaces order b := by
    rw [fields, ← details, key, recordPlaces, wrapped, table]
  have keyFields : q.fields = k.keyPlaces order b := by
    rw [keys.fields, keys.toRecipient, keys.toSender]
    rfl
  refine ⟨q, details.symm, ?_, ?_⟩
  · intro small
    have stored := keys.stored (Nat.lt_of_le_of_lt grown.length_le small)
    rw [stores] at stored
    exact stored.mono grown
  · intro part
    cases part with
    | recipient => rw [RecordPart.place?, place, keys.toRecipient]
    | sender => rw [RecordPart.place?, place, keys.toSender]
    | wrappedKey => rw [RecordPart.place?, place, key, wrapped]
    | detailsType => rw [RecordPart.place?, places, (slot_detailsType order stores).1]
    | curve => rw [RecordPart.place?, keyFields, (slot_curve order stores).1]
    | keyMethod => rw [RecordPart.place?, places, (slot_keyMethod order stores).1]

end KeyRecord

end SealedContainer.Header
