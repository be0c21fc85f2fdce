import Mathlib.Data.List.Forall2
import SealedContainer.Proofs.Header.Layout
import SealedContainer.Proofs.Header.Verified

/-!
Headers as they are written: every part stands in the buffer, at places that the writing hands on.
The distance to a directory has a sign, so a table is sure to be read only in the last half of the
largest buffer.
-/

namespace SealedContainer.Header

def Details.Complete : Details → Prop
  | .ecc d => d.recipient.isSome ∧ d.sender.isSome
  | .server d => d.recipient.isSome ∧ d.server.isSome ∧ d.transaction.isSome

instance : DecidablePred Details.Complete
  | .ecc _ => inferInstanceAs (Decidable (_ ∧ _))
  | .server _ => inferInstanceAs (Decidable (_ ∧ _ ∧ _))

structure Record.Complete (r : Record) : Prop where
  key : r.wrappedKey.isSome
  details : ∀ d, r.details = some d → d.Complete

instance (r : Record) : Decidable r.Complete :=
  decidable_of_iff (r.wrappedKey.isSome ∧ ∀ d ∈ r.details, d.Complete)
    ⟨fun parts => ⟨parts.1, parts.2⟩, fun parts => ⟨parts.key, parts.details⟩⟩

/-- A record can be written, and its type is written if and only if its details are. -/
structure Record.Storable (zeros : Bool) (r : Record) : Prop extends r.Complete where
  paired : r.Paired zeros

namespace Layout

variable {b : Layout}

theorem mem_eccFields {order : KeyOrder} {d : EccDetails} {recipient sender : Nat}
    {f : Nat × Field} : f ∈ eccFields order d recipient sender ↔
      f = (slots.curve, .byte d.curve.toUInt8) ∨
        f = (slots.recipient, .ref recipient) ∨ f = (slots.sender, .ref sender) := by
  cases order with
  | curveFirst => simp [eccFields]
  | curveLast =>
      simp only [eccFields, List.mem_reverse]
      simp

theorem fitted_eccFields (order : KeyOrder) (d : EccDetails) {recipient sender size : Nat}
    (one : recipient ≤ size) (two : sender ≤ size) :
    Fitted (eccFields order d recipient sender) size := by
  refine ⟨?_, ?_, ?_, ?_⟩
  · intro f member
    rcases mem_eccFields.mp member with rfl | rfl | rfl <;> simp [Slotted, slots]
  · cases order <;> simp [eccFields]
  · intro f member target same
    rcases mem_eccFields.mp member with rfl | rfl | rfl <;> cases same <;> assumption
  · cases order <;> simp [eccFields, slots]

structure EccPut (order : KeyOrder) (b : Layout) (curve : Int8) (recipient sender : Bytes)
    (b' : Layout) (p : EccPlaces) : Prop where
  put : putEcc? order b ⟨curve, some recipient, some sender⟩ = some (b', p.table)
  grown : Grown b b' (100 + recipient.length + sender.length)
  sound : b'.Sound
  inside : p.table ≤ b'.size
  stored : b'.size < 2 ^ 31 → EccAt b.storesZeros b'.bytes p curve recipient sender
  toRecipient : p.recipient = (b.putBytes recipient).2
  toSender : p.sender = ((b.putBytes recipient).1.putBytes sender).2
  fields : p.fields = ((b.putBytes recipient).1.putBytes sender).1.tablePlaces
    (eccFields order ⟨curve, some recipient, some sender⟩ p.recipient p.sender)

theorem putEcc?_spec (order : KeyOrder) (sound : b.Sound) (curve : Int8)
    (recipient sender : Bytes) : ∃ b' p, EccPut order b curve recipient sender b' p := by
  rcases putBytes_spec b recipient with ⟨c, first, put, extended, after, last, recipientAt⟩
  rcases putBytes_spec c sender with ⟨d, second, put', extended', after', last', senderAt⟩
  have earlier := extended.size_le
  have later := extended'.size_le
  obtain ⟨e, start, dir, places, table, written⟩ :=
    putTable_spec ((sound.extend extended).extend extended') (fitted_eccFields order
      ⟨curve, some recipient, some sender⟩ (show first ≤ d.size by omega) (Nat.le_of_eq last'))
  have wide : slots.sender + 2 ≤ width places := written.wide (slots.sender, .ref second)
    (mem_eccFields.mpr (Or.inr (Or.inr rfl))) second rfl
  have total := (extended.trans extended').toGrown.trans written.grown
  refine ⟨e, ⟨start, dir, places, first, second⟩, ?_, total.mono (by omega), written.sound wide,
    written.inside, ?_, by rw [put], by rw [put, put'], by rw [put, put', ← written.laid]⟩
  · simp only [putEcc?, Option.bind_eq_bind, Option.bind_some, put, put']
    exact congrArg some table
  · intro small
    have held := written.holds (by omega)
    have size := written.grown.le
    have zeros : d.storesZeros = b.storesZeros := extended'.storesZeros.trans extended.storesZeros
    have narrow : width places ≤ slots.sender + 2 := by
      refine written.narrow _ (by decide) ?_
      intro f member
      rcases mem_eccFields.mp member with rfl | rfl | rfl <;> simp [slots]
    refine ⟨written.table (Or.inl small), narrow, ?_, ?_, ?_, ?_, ?_⟩
    · rw [← zeros]
      exact held _ (mem_eccFields.mpr (Or.inl rfl))
    · exact held _ (mem_eccFields.mpr (Or.inr (Or.inl rfl)))
    · exact held _ (mem_eccFields.mpr (Or.inr (Or.inr rfl)))
    · exact (recipientAt (by omega)).mono (extended'.grown.trans written.grown.bytes)
    · exact (senderAt (by omega)).mono written.grown.bytes

theorem mem_serverFields {d : ServerDetails} {recipient server transaction : Nat}
    {f : Nat × Field} :
    f ∈ serverFields d recipient server transaction ↔
      f = (slots.curve, .byte d.curve.toUInt8) ∨ f = (slots.recipient, .ref recipient) ∨
        f = (slots.server, .ref server) ∨ f = (slots.transaction, .ref transaction) := by
  simp [serverFields]

theorem fitted_serverFields (d : ServerDetails) {recipient server transaction size : Nat}
    (one : recipient ≤ size) (two : server ≤ size) (three : transaction ≤ size) :
    Fitted (serverFields d recipient server transaction) size := by
  refine ⟨?_, ?_, ?_, ?_⟩
  · intro f member
    rcases mem_serverFields.mp member with rfl | rfl | rfl | rfl <;> simp [Slotted, slots]
  · simp [serverFields]
  · intro f member target same
    rcases mem_serverFields.mp member with rfl | rfl | rfl | rfl <;> cases same <;> assumption
  · simp [serverFields, slots]

theorem putServer?_spec (sound : b.Sound) (curve : Int8) (recipient : Bytes)
    (server transaction : String) :
    ∃ b' p, putServer? b ⟨curve, some recipient, some server, some transaction⟩ =
        some (b', p.table) ∧
      Grown b b' (100 + recipient.length + (Bytes.ofString server).length +
        (Bytes.ofString transaction).length) ∧ b'.Sound ∧ p.table ≤ b'.size ∧
        (b'.size < 2 ^ 31 →
          ServerAt b.storesZeros b'.bytes p curve recipient server transaction) := by
  rcases putBytes_spec b recipient with ⟨c, first, put, extended, after, last, recipientAt⟩
  rcases putText_spec c server with ⟨d, second, put', extended', after', last', serverAt⟩
  rcases putText_spec d transaction with ⟨e, third, put'', extended'', after'', last'',
    transactionAt⟩
  have earlier := extended.size_le
  have later := extended'.size_le
  have latest := extended''.size_le
  obtain ⟨g, start, dir, places, table, written⟩ :=
    putTable_spec (((sound.extend extended).extend extended').extend extended'')
      (fitted_serverFields ⟨curve, some recipient, some server, some transaction⟩
        (show first ≤ e.size by omega) (show second ≤ e.size by omega) (Nat.le_of_eq last''))
  have total := ((extended.trans extended').trans extended'').toGrown.trans written.grown
  have wide : slots.transaction + 2 ≤ width places := written.wide (slots.transaction, .ref third)
    (mem_serverFields.mpr (Or.inr (Or.inr (Or.inr rfl)))) third rfl
  have grown := extended''.grown.trans written.grown.bytes
  refine ⟨g, ⟨start, dir, places, first, second, third⟩, ?_, total.mono (by omega),
    written.sound (Nat.le_trans (by decide) wide), written.inside, ?_⟩
  · simp only [putServer?, Option.bind_eq_bind, Option.bind_some, put, put', put'']
    exact congrArg some table
  · intro small
    have held := written.holds (by omega)
    have size := written.grown.le
    have zeros : e.storesZeros = b.storesZeros :=
      extended''.storesZeros.trans (extended'.storesZeros.trans extended.storesZeros)
    refine ⟨written.table (Or.inl small), ?_, ?_, ?_, ?_, ?_, ?_, ?_⟩
    · rw [← zeros]
      exact held _ (mem_serverFields.mpr (Or.inl rfl))
    · exact held _ (mem_serverFields.mpr (Or.inr (Or.inl rfl)))
    · exact held _ (mem_serverFields.mpr (Or.inr (Or.inr (Or.inl rfl))))
    · exact held _ (mem_serverFields.mpr (Or.inr (Or.inr (Or.inr rfl))))
    · exact (recipientAt (by omega)).mono (extended'.grown.trans grown)
    · exact (serverAt (by omega)).mono grown
    · exact (transactionAt (by omega)).mono written.grown.bytes

theorem putDetails?_spec (order : KeyOrder) (sound : b.Sound) {d : Details}
    (complete : d.Complete) : ∃ b' place, putDetails? order b d = some (b', place) ∧
      Grown b b' d.weight ∧ b'.Sound ∧ place ≤ b'.size ∧
        (b'.size < 2 ^ 31 → DetailsAt b.storesZeros b'.bytes place d) := by
  cases d with
  | ecc d =>
      rcases d with ⟨curve, recipient, sender⟩
      rcases complete with ⟨one, two⟩
      rcases Option.isSome_iff_exists.mp one with ⟨recipient, rfl⟩
      rcases Option.isSome_iff_exists.mp two with ⟨sender, rfl⟩
      rcases putEcc?_spec order sound curve recipient sender with ⟨b', p, written⟩
      exact ⟨b', p.table, written.put, written.grown, written.sound, written.inside,
        fun small => .ecc (written.stored small)⟩
  | server d =>
      rcases d with ⟨curve, recipient, server, transaction⟩
      rcases complete with ⟨one, two, three⟩
      rcases Option.isSome_iff_exists.mp one with ⟨recipient, rfl⟩
      rcases Option.isSome_iff_exists.mp two with ⟨server, rfl⟩
      rcases Option.isSome_iff_exists.mp three with ⟨transaction, rfl⟩
      rcases putServer?_spec sound curve recipient server transaction with ⟨b', p, put, grown, safe,
        inside, stored⟩
      exact ⟨b', p.table, put, grown, safe, inside, fun small => .server (stored small)⟩

theorem mem_recordFields {r : Record} {details : Option Nat} {key : Nat} {f : Nat × Field} :
    f ∈ recordFields r details key ↔ f = (slots.detailsType, .byte r.detailsType) ∨
      (∃ place, details = some place ∧ f = (slots.details, .ref place)) ∨
        f = (slots.wrappedKey, .ref key) ∨ f = (slots.keyMethod, .byte r.keyMethod.toUInt8) := by
  cases details <;> simp [recordFields]

theorem fitted_recordFields (r : Record) {details : Option Nat} {key size : Nat}
    (one : ∀ place, details = some place → place ≤ size) (two : key ≤ size) :
    Fitted (recordFields r details key) size := by
  refine ⟨?_, ?_, ?_, ?_⟩
  · intro f member
    rcases mem_recordFields.mp member with rfl | ⟨place, _, rfl⟩ | rfl | rfl <;>
      simp [Slotted, slots]
  · cases details <;> simp [recordFields]
  · intro f member target same
    rcases mem_recordFields.mp member with rfl | ⟨place, there, rfl⟩ | rfl | rfl
    · cases same
    · cases same
      exact one _ there
    · cases same
      exact two
    · cases same
  · cases details <;> simp [recordFields, slots]

theorem putOptional_spec (order : KeyOrder) (sound : b.Sound) (details : Option Details)
    (complete : ∀ d, details = some d → d.Complete) :
    ∃ c place, putOptional? order b details = some (c, place) ∧
      Grown b c ((details.map Details.weight).getD 0) ∧ c.Sound ∧
      (∀ target, place = some target → target ≤ c.size) ∧ place.isSome = details.isSome ∧
        (c.size < 2 ^ 31 → ∀ target d, place = some target → details = some d →
          DetailsAt b.storesZeros c.bytes target d) := by
  cases details with
  | none => exact ⟨b, none, rfl, (Extends.refl b).toGrown, sound, by simp, rfl, by simp⟩
  | some d =>
      rcases putDetails?_spec order sound (complete d rfl) with ⟨c, place, put, grown, safe, inside,
        stored⟩
      refine ⟨c, some place, by rw [putOptional?, put]; rfl, grown, safe, ?_, rfl, ?_⟩
      · rintro _ ⟨⟩
        exact inside
      · rintro small _ _ ⟨⟩ ⟨⟩
        exact stored small

/-- A record was written, its details first and then its key. -/
structure RecordPut (order : KeyOrder) (b : Layout) (r : Record) (b' : Layout)
    (p : RecordPlaces) : Prop where
  put : putRecord? order b r = some (b', p.table)
  grown : Grown b b' r.weight
  sound : b'.Sound
  inside : p.table ≤ b'.size
  stored : b'.size < 2 ^ 31 → RecordAt b.storesZeros b'.bytes p r
  laid : ∃ c content, putOptional? order b r.details = some (c, p.details) ∧
    r.wrappedKey = some content ∧ c.bytes <:+ b'.bytes ∧ p.key = (c.putBytes content).2 ∧
      p.fields = (c.putBytes content).1.tablePlaces (recordFields r p.details p.key)

theorem putRecord?_spec (order : KeyOrder) (sound : b.Sound) {r : Record}
    (complete : r.Complete) : ∃ b' p, RecordPut order b r b' p := by
  rcases putOptional_spec order sound r.details complete.details with ⟨c, details, put, grown, safe,
    inside, same, detailsAt⟩
  rcases Option.isSome_iff_exists.mp complete.key with ⟨content, wrapped⟩
  rcases putBytes_spec c content with ⟨d, key, put', extended, after, last, keyAt⟩
  have growth := grown.size
  have later := extended.size_le
  obtain ⟨e, start, dir, places, table, written⟩ := putTable_spec (safe.extend extended)
    (fitted_recordFields r (fun place there => Nat.le_trans (inside place there) later.1)
      (Nat.le_of_eq last))
  have wide : slots.wrappedKey + 2 ≤ width places := written.wide (slots.wrappedKey, .ref key)
    (mem_recordFields.mpr (Or.inr (Or.inr (Or.inl rfl)))) key rfl
  have total := (grown.trans extended.toGrown).trans written.grown
  have grownC := extended.grown.trans written.grown.bytes
  refine ⟨e, ⟨start, dir, places, key, details⟩, ?_, total.mono ?_, written.sound wide,
    written.inside, ?_, ⟨c, content, put, wrapped, grownC, by rw [put'], by
      rw [put', written.laid]⟩⟩
  · simp only [putRecord?, Option.bind_eq_bind, Option.bind_some, put, wrapped, put']
    exact congrArg some table
  · simp only [Record.weight, wrapped, Option.getD_some]
    omega
  · intro small
    have size := written.grown.le
    have held := written.holds (by omega)
    have type := held _ (mem_recordFields.mpr (Or.inl rfl))
    have zeros : d.storesZeros = b.storesZeros := extended.storesZeros.trans grown.zeros
    rw [← zeros]
    refine ⟨written.table (Or.inl small), type, ?_, ?_, ⟨content, wrapped, ?_⟩, ?_⟩
    · exact held _ (mem_recordFields.mpr (Or.inr (Or.inr (Or.inr rfl))))
    · exact held _ (mem_recordFields.mpr (Or.inr (Or.inr (Or.inl rfl))))
    · exact (keyAt (by omega)).mono written.grown.bytes
    · cases there : r.details with
      | none =>
          rw [there, Option.isSome_none, Option.isSome_eq_false_iff, Option.isNone_iff_eq_none]
            at same
          subst same
          exact written.absent _ (by simp [recordFields, slots])
      | some d =>
          rw [there, Option.isSome_some, Option.isSome_iff_exists] at same
          rcases same with ⟨target, rfl⟩
          refine ⟨held _ (mem_recordFields.mpr (Or.inr (Or.inl ⟨target, rfl, rfl⟩))), ?_⟩
          rw [zeros]
          exact (detailsAt (by omega) target d rfl there).mono grownC

inductive RecordsPut (order : KeyOrder) :
    Layout → List Record → Layout → List RecordPlaces → Prop where
  | nil {b : Layout} : RecordsPut order b [] b []
  | cons {b c d : Layout} {r : Record} {rs : List Record} {p : RecordPlaces}
      {ps : List RecordPlaces} (first : RecordPut order b r c p)
      (rest : RecordsPut order c rs d ps) : RecordsPut order b (r :: rs) d (p :: ps)

theorem putRecords?_spec (order : KeyOrder) (sound : b.Sound) (rs : List Record)
    (complete : ∀ r ∈ rs, r.Complete) : ∃ c ps, RecordsPut order b rs c ps := by
  induction rs generalizing b with
  | nil => exact ⟨b, [], .nil⟩
  | cons r rs ih =>
      rcases putRecord?_spec order sound (complete r (List.mem_cons_self ..)) with ⟨c, p, first⟩
      obtain ⟨d, ps, rest⟩ := ih first.sound fun s member =>
        complete s (List.mem_cons_of_mem _ member)
      exact ⟨d, p :: ps, .cons first rest⟩

namespace RecordsPut

variable {order : KeyOrder} {c : Layout} {rs : List Record} {ps : List RecordPlaces}

theorem put (written : RecordsPut order b rs c ps) :
    putRecords? order b rs = some (c, ps.map RecordPlaces.table) := by
  induction written with
  | nil => rfl
  | cons first rest ih =>
      simp only [putRecords?, Option.bind_eq_bind, Option.bind_some, first.put, ih]
      rfl

theorem length_eq (written : RecordsPut order b rs c ps) : ps.length = rs.length := by
  induction written with
  | nil => rfl
  | cons first rest ih => rw [List.length_cons, List.length_cons, ih]

theorem grown (written : RecordsPut order b rs c ps) :
    Grown b c (rs.map Record.weight).sum := by
  induction written with
  | nil => exact (Extends.refl _).toGrown
  | cons first rest ih => exact first.grown.trans ih

theorem sound (written : RecordsPut order b rs c ps) (before : b.Sound) : c.Sound := by
  induction written with
  | nil => exact before
  | cons first rest ih => exact ih first.sound

theorem inside (written : RecordsPut order b rs c ps) : ∀ p ∈ ps, p.table ≤ c.size := by
  induction written with
  | nil => simp
  | cons first rest ih =>
      intro q member
      rcases List.mem_cons.mp member with rfl | member
      · exact Nat.le_trans first.inside rest.grown.le
      · exact ih q member

/-- Records are sure to be read while the buffer is small. -/
theorem stored (written : RecordsPut order b rs c ps) (small : c.size < 2 ^ 31) :
    List.Forall₂ (RecordAt b.storesZeros c.bytes) ps rs := by
  induction written with
  | nil => exact .nil
  | cons first rest ih =>
      have later := ih small
      rw [first.grown.zeros] at later
      have early := first.stored (Nat.lt_of_le_of_lt rest.grown.le small)
      exact .cons (early.mono rest.grown.bytes) later

theorem take (written : RecordsPut order b rs c ps) (n : Nat) :
    ∃ d, RecordsPut order b (rs.take n) d (ps.take n) ∧ d.bytes <:+ c.bytes := by
  induction written generalizing n with
  | nil =>
      rw [List.take_nil, List.take_nil]
      exact ⟨_, .nil, List.suffix_rfl⟩
  | cons first rest ih =>
      cases n with
      | zero => exact ⟨_, .nil, first.grown.bytes.trans rest.grown.bytes⟩
      | succ n =>
          obtain ⟨d, before, inside⟩ := ih n
          exact ⟨d, .cons first before, inside⟩

theorem stored_take (written : RecordsPut order b rs c ps) (n : Nat)
    (small : b.size + ((rs.take n).map Record.weight).sum < 2 ^ 31) :
    List.Forall₂ (RecordAt b.storesZeros c.bytes) (ps.take n) (rs.take n) := by
  obtain ⟨d, before, inside⟩ := written.take n
  have each := before.stored (Nat.lt_of_le_of_lt before.grown.size small)
  exact each.imp fun _ _ at_ => at_.mono inside

theorem get (written : RecordsPut order b rs c ps) {i : Nat} {r : Record}
    (there : rs[i]? = some r) : ∃ d e p, ps[i]? = some p ∧ RecordPut order d r e p ∧
      RecordsPut order b (rs.take i) d (ps.take i) ∧ e.bytes <:+ c.bytes := by
  induction written generalizing i with
  | nil => simp at there
  | cons first rest ih =>
      cases i with
      | zero =>
          simp only [List.getElem?_cons_zero, Option.some.injEq] at there
          subst there
          exact ⟨_, _, _, rfl, first, .nil, rest.grown.bytes⟩
      | succ i =>
          rw [List.getElem?_cons_succ] at there
          rcases ih there with ⟨d, e, p, known, put, before, inside⟩
          exact ⟨d, e, p, known, put, .cons first before, inside⟩

end RecordsPut

theorem recordsAt_of_refs {zeros : Bool} {h : Bytes} {place : Nat} {ps : List RecordPlaces}
    {rs : List Record} (refs : RefsAt h place (ps.map RecordPlaces.table))
    (each : List.Forall₂ (RecordAt zeros h) ps rs) : RecordsAt zeros h place ps rs := by
  induction each generalizing place with
  | nil => exact .nil
  | cons first _ ih => exact .cons refs.1 first (ih refs.2)

structure ListPut (order : KeyOrder) (b : Layout) (records : Option (List Record)) (c : Layout)
    (list : Option Nat) (ps : List RecordPlaces) : Prop where
  put : putList? order b records = some (c, list)
  grown : Grown b c (10 + 7 * (records.getD []).length +
    ((records.getD []).map Record.weight).sum)
  sound : c.Sound
  inside : ∀ place, list = some place → place ≤ c.size
  same : list.isSome = records.isSome
  each : ∃ d, RecordsPut order b (records.getD []) d ps ∧ d.bytes <:+ c.bytes
  stored : c.size < 2 ^ 32 → ∀ place rs, list = some place → records = some rs →
    ∀ zeros h n, c.bytes <:+ h → n ≤ rs.length →
      List.Forall₂ (RecordAt zeros h) (ps.take n) (rs.take n) →
        ListAt zeros h place (ps.take n) rs

theorem putList?_spec (order : KeyOrder) (sound : b.Sound) (records : Option (List Record))
    (complete : ∀ rs, records = some rs → ∀ r ∈ rs, r.Complete) :
    ∃ c list ps, ListPut order b records c list ps := by
  cases records with
  | none =>
      exact ⟨b, none, [], rfl, (Extends.refl b).toGrown.mono (by omega), sound, by simp, rfl,
        ⟨b, .nil, List.suffix_rfl⟩, by simp⟩
  | some rs =>
      rcases putRecords?_spec order sound rs (complete rs rfl) with ⟨c, ps, written⟩
      obtain ⟨d, place, put, extended, last, whole, counted, room, refs⟩ :=
        putRefs_spec c (ps.map RecordPlaces.table) (by simpa using written.inside)
      rw [List.length_map, written.length_eq] at extended counted room
      refine ⟨d, some place, ps, ?_, (written.grown.trans extended.toGrown).mono ?_,
        (written.sound sound).extend extended, ?_, rfl, ⟨c, written, extended.grown⟩, ?_⟩
      · simp only [putList?, Option.bind_eq_bind, written.put, Option.bind_some, put]
        rfl
      · simp only [Option.getD_some]
        omega
      · rintro _ ⟨⟩
        exact Nat.le_of_eq last
      · rintro small _ _ ⟨⟩ ⟨⟩ zeros h n grown within each
        have count : (ps.take n).length = n := by
          rw [List.length_take, written.length_eq]
          omega
        refine ⟨counted.mono grown, whole, by omega, room, by omega, ?_⟩
        rw [count]
        refine recordsAt_of_refs ?_ each
        rw [List.map_take]
        exact ((refs (by omega)).take n).mono grown

theorem mem_headerFields {header : Header} {records : Option Nat} {f : Nat × Field} :
    f ∈ headerFields header records ↔
      (∃ place, records = some place ∧ f = (slots.records, .ref place)) ∨
        f = (slots.payloadMethod, .byte header.payloadMethod.toUInt8) := by
  cases records <;> simp [headerFields]

theorem fitted_headerFields (header : Header) {records : Option Nat} {size : Nat}
    (one : ∀ place, records = some place → place ≤ size) :
    Fitted (headerFields header records) size := by
  refine ⟨?_, ?_, ?_, ?_⟩
  · intro f member
    rcases mem_headerFields.mp member with ⟨place, _, rfl⟩ | rfl <;> simp [Slotted, slots]
  · cases records <;> simp [headerFields]
  · intro f member target same
    rcases mem_headerFields.mp member with ⟨place, there, rfl⟩ | rfl
    · cases same
      exact one _ there
    · cases same
  · cases records <;> simp [headerFields, slots]

end Layout

open Layout

/-- A header was written, and stands in its buffer unless that is too large for its references. It
is known where those records are that are sure to be read. -/
structure Written (zeros : Bool) (order : KeyOrder) (header : Header) (h : Bytes)
    (ps : List RecordPlaces) : Prop where
  put : write? zeros order header = some h
  short : h.length ≤ header.weight
  each : ∃ b, RecordsPut order (.empty zeros) (header.records.getD []) b ps ∧ b.bytes <:+ h ∧
    b.size < h.length
  stored : h.length < 2 ^ 32 → ∀ n ≤ (header.records.getD []).length,
    List.Forall₂ (RecordAt zeros h) (ps.take n) ((header.records.getD []).take n) →
      ∃ p : HeaderPlaces, HeaderAt zeros h p header ∧ p.records = ps.take n ∧
        ∃ b, putList? order (.empty zeros) header.records = some (b, p.list) ∧
          p.fields = b.tablePlaces (headerFields header p.list)

namespace Written

variable {zeros : Bool} {order : KeyOrder} {header : Header} {h : Bytes} {ps : List RecordPlaces}

theorem length_eq (written : Written zeros order header h ps) :
    ps.length = (header.records.getD []).length := by
  rcases written.each with ⟨_, each, _⟩
  exact each.length_eq

theorem records_take (written : Written zeros order header h ps) (n : Nat)
    (small : (((header.records.getD []).take n).map Record.weight).sum < 2 ^ 31) :
    List.Forall₂ (RecordAt zeros h) (ps.take n) ((header.records.getD []).take n) := by
  obtain ⟨b, each, inside, _⟩ := written.each
  have early := each.stored_take n (by rwa [show (empty zeros).size = 0 by rfl, Nat.zero_add])
  exact early.imp fun _ _ at_ => at_.mono inside

theorem records (written : Written zeros order header h ps) (small : h.length ≤ Verify.maxSize) :
    List.Forall₂ (RecordAt zeros h) ps (header.records.getD []) := by
  obtain ⟨b, each, inside, shorter⟩ := written.each
  have early := each.stored (Nat.lt_of_lt_of_le shorter small)
  exact early.imp fun _ _ at_ => at_.mono inside

theorem headerAt (written : Written zeros order header h ps) (small : h.length ≤ Verify.maxSize) :
    ∃ p : HeaderPlaces, HeaderAt zeros h p header ∧ p.records = ps ∧ p.Complete header := by
  have each := written.records small
  have whole : ps.take (header.records.getD []).length = ps := by
    rw [← written.length_eq, List.take_length]
  have limit : Verify.maxSize = 2 ^ 31 := rfl
  obtain ⟨p, at_, known, _⟩ := written.stored (by omega) _ (Nat.le_refl _)
    (by rwa [whole, List.take_length])
  rw [whole] at known
  refine ⟨p, at_, known, ?_⟩
  intro rs there
  rw [known, written.length_eq, there, Option.getD_some]

end Written

/-- A header whose parts are all there is written. -/
theorem write?_spec (zeros : Bool) (order : KeyOrder) (header : Header)
    (complete : ∀ rs, header.records = some rs → ∀ r ∈ rs, r.Complete) :
    ∃ h ps, Written zeros order header h ps := by
  rcases putList?_spec order (sound_empty zeros) header.records complete with ⟨b, list, ps, listed⟩
  rcases putTable_spec listed.sound (fitted_headerFields header listed.inside) with ⟨c, start, dir,
    places, table, written⟩
  rcases putRef_spec c start written.inside with ⟨extended, above, rootAt⟩
  have zero : (empty zeros).size = 0 := rfl
  have growth := listed.grown.size
  have further := written.grown.size
  have final := extended.size_le
  have before := written.grown.le
  have grown := written.grown.bytes.trans extended.grown
  rcases listed.each with ⟨d, each, inside⟩
  refine ⟨c.finish start, ps, ?_, ?_, ⟨d, each, inside.trans grown, ?_⟩, ?_⟩
  · simp only [write?, Option.bind_eq_bind, listed.put, Option.bind_some, table]
    rfl
  · change (c.putRef start).size ≤ header.weight
    simp only [weight]
    omega
  · have sooner := inside.length_le
    change d.size < (c.putRef start).size
    change d.size ≤ b.size at sooner
    omega
  · intro small n within early
    change (c.putRef start).size < 2 ^ 32 at small
    have root := rootAt small
    have narrow : width places ≤ slots.payloadMethod + 2 := by
      refine written.narrow _ (by decide) ?_
      intro f member
      rcases mem_headerFields.mp member with ⟨place, _, rfl⟩ | rfl <;> simp [slots]
    have held := written.holds (by omega)
    have whole : (c.putRef start).bytes.length % 4 = 0 := root.aligned
    have flag : b.storesZeros = zeros := listed.grown.zeros
    have method := held _ (mem_headerFields.mpr (Or.inr rfl))
    rw [flag] at method
    have near := written.table (Or.inr (Nat.lt_of_le_of_lt narrow (by decide)))
    have same := listed.same
    refine ⟨⟨start, dir, places, list, ps.take n⟩, ⟨whole, root, near.mono extended.grown, narrow,
      ByteAt.mono method extended.grown, ?_⟩, rfl, b, listed.put, written.laid⟩
    cases there : header.records with
    | none =>
        rw [there, Option.isSome_none, Option.isSome_eq_false_iff,
          Option.isNone_iff_eq_none] at same
        subst same
        exact written.absent _ (by simp [headerFields, slots])
    | some rs =>
        rw [there, Option.isSome_some, Option.isSome_iff_exists] at same
        rcases same with ⟨place, rfl⟩
        rw [there, Option.getD_some] at within early
        refine ⟨LinkAt.mono (held _ (mem_headerFields.mpr (Or.inl ⟨place, rfl, rfl⟩)))
          extended.grown, ?_⟩
        exact listed.stored (by omega) place rs rfl there zeros _ n grown within early

section Put

variable (put : write? zeros order header = some h)
  (storable : ∀ rs, header.records = some rs → ∀ r ∈ rs, r.Storable zeros)
  (fitting : ∀ rs, header.records = some rs → ∀ r ∈ rs, r.Fitting)
  (bytes : header.weight ≤ Verify.maxSize)

include put storable bytes

theorem headerAt_of_write? : ∃ p : HeaderPlaces, HeaderAt zeros h p header ∧ p.Complete header := by
  rcases write?_spec zeros order header (fun rs there r member =>
    (storable rs there r member).toComplete) with ⟨h', ps, written⟩
  obtain rfl : h' = h := Option.some.inj (written.put.symm.trans put)
  obtain ⟨p, at_, _, complete⟩ := written.headerAt (Nat.le_trans written.short bytes)
  exact ⟨p, at_, complete⟩

include fitting

/-- Of what is not too large, the number of tables decides whether it passes. -/
theorem verified_of_write? : verified h = true ↔ header.tables ≤ Verify.maxTables := by
  obtain ⟨p, at_, complete⟩ := headerAt_of_write? put storable bytes
  have paired : ∀ rs, header.records = some rs → ∀ r ∈ rs, r.Paired zeros :=
    fun rs there r member => (storable rs there r member).paired
  rw [verified_iff_of_at at_ complete fitting paired]
  exact and_iff_left (Nat.le_trans (header.visited_le zeros) bytes)

/-- What was written is read back, as long as it is within the limits. -/
theorem ofBytes?_of_write? (tables : header.tables ≤ Verify.maxTables) :
    ofBytes? h = some header.seen := by
  obtain ⟨p, at_, complete⟩ := headerAt_of_write? put storable bytes
  have accepted := (verified_of_write? put storable fitting bytes).mpr tables
  rw [ofBytes?, if_pos accepted, read?_of_at at_ complete fitting]

end Put

end SealedContainer.Header
