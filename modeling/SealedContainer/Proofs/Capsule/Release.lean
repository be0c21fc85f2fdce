import SealedContainer.Proofs.Capsule.Interleaving
import SealedContainer.Proofs.Key.Codec
import SealedContainer.Proofs.Key.Rsa

/-!
Who gets a stored capsule. The checks on a capsule decode its recipient, and its release encodes the
key of the caller and compares. Main statement: `released_to_one`. As the two are inverse, a capsule
that is taken is released to one key and to no other, from the time when it is stored to the sweep
that takes it out.
-/

namespace SealedContainer

open Outcome

namespace Capsule

/-- The capsules that a server can take, with the key that each is for. -/
inductive IsFor : Capsule → PublicKey → Prop
  | ec (recipient sender : EcPublicKey) (same : sender.curve = recipient.curve) :
    IsFor ⟨.ec recipient.curve, some recipient.encode, some sender.encode⟩ (.ec recipient)
  | rsa (recipient : RsaPublicKey) {bytes : Bytes} (encoded : recipient.encode? = some bytes)
    (keyMaterial : Option Bytes) : IsFor ⟨.rsa, some bytes, keyMaterial⟩ (.rsa recipient)

theorem checkPoint_eq_ok_iff {curve : Curve} {field : CapsuleField} {bytes : Bytes} :
    checkPoint curve field bytes = .ok () ↔
      ∃ key : EcPublicKey, key.curve = curve ∧ bytes = key.encode := by
  unfold checkPoint
  constructor
  · intro checked
    split at checked
    next =>
      split at checked
      next key read => exact ⟨key, EcPublicKey.eq_encode_of_decode read⟩
      next => cases checked
    next => cases checked
  · intro encoded
    obtain ⟨key, rfl, rfl⟩ := encoded
    simp

theorem checkEc_eq_ok_iff {curve : Curve} {c : Capsule} :
    c.checkEc curve = .ok () ↔
      ∃ recipient sender : EcPublicKey, recipient.curve = curve ∧ sender.curve = curve ∧
        c.recipient = some recipient.encode ∧ c.keyMaterial = some sender.encode := by
  obtain ⟨kind, recipient, keyMaterial⟩ := c
  cases recipient with
  | none => simp [checkEc, required]
  | some recipient =>
      cases keyMaterial with
      | none => simp [checkEc, required]
      | some keyMaterial =>
          simp only [checkEc, required, ok_bind, bind_eq_ok]
          constructor
          · intro checked
            obtain ⟨⟨⟩, first, second⟩ := checked
            obtain ⟨recipient, on, rfl⟩ := checkPoint_eq_ok_iff.mp first
            obtain ⟨sender, too, rfl⟩ := checkPoint_eq_ok_iff.mp second
            exact ⟨recipient, sender, on, too, rfl, rfl⟩
          · intro encoded
            obtain ⟨recipient, sender, on, too, first, second⟩ := encoded
            exact ⟨(), checkPoint_eq_ok_iff.mpr ⟨recipient, on, Option.some.inj first⟩,
              checkPoint_eq_ok_iff.mpr ⟨sender, too, Option.some.inj second⟩⟩

theorem checkRsa_eq_ok_iff {c : Capsule} :
    c.checkRsa = .ok () ↔
      ∃ (recipient : RsaPublicKey) (bytes : Bytes),
        recipient.encode? = some bytes ∧ c.recipient = some bytes := by
  obtain ⟨kind, recipient, keyMaterial⟩ := c
  cases recipient with
  | none => simp [checkRsa, required]
  | some bytes =>
      simp only [checkRsa, required, ok_bind]
      constructor
      · intro checked
        split at checked
        next key read => exact ⟨key, bytes, RsaPublicKey.decode_eq_ok_iff.mp read, rfl⟩
        next => cases checked
      · intro encoded
        obtain ⟨key, _, written, same⟩ := encoded
        cases same
        rw [RsaPublicKey.decode_eq_ok_iff.mpr written]
        rfl

theorem validate_eq_ok_iff {c : Capsule} : c.validate = .ok () ↔ ∃ key, c.IsFor key := by
  constructor
  · intro valid
    obtain ⟨kind, recipient, keyMaterial⟩ := c
    cases kind with
    | ec curve =>
        obtain ⟨recipient, sender, rfl, same, rfl, rfl⟩ :=
          checkEc_eq_ok_iff.mp (mapError_eq_ok.mp valid)
        exact ⟨_, .ec recipient sender same⟩
    | rsa =>
        obtain ⟨recipient, bytes, encoded, rfl⟩ := checkRsa_eq_ok_iff.mp (mapError_eq_ok.mp valid)
        exact ⟨_, .rsa recipient encoded keyMaterial⟩
    | unknown => cases valid
  · intro addressed
    obtain ⟨key, addressed⟩ := addressed
    cases addressed with
    | ec recipient sender same =>
        exact mapError_eq_ok.mpr (checkEc_eq_ok_iff.mpr ⟨recipient, sender, rfl, same, rfl, rfl⟩)
    | rsa recipient encoded keyMaterial =>
        exact mapError_eq_ok.mpr (checkRsa_eq_ok_iff.mpr ⟨recipient, _, encoded, rfl⟩)

/-- What is stored of a capsule is released to the key that the capsule is for. -/
theorem IsFor.isFor_record_iff {c : Capsule} {owner key : PublicKey} (addressed : c.IsFor owner)
    (resolved : ResolvedExpiry) (now : Instant) (id : String) :
    (c.record resolved now id).isFor key = true ↔ key = owner := by
  cases addressed with
  | ec recipient sender same =>
      cases key with
      | ec key =>
          simp only [record, StoredCapsule.isFor, Option.getD_some, Bool.and_eq_true, beq_iff_eq,
            PublicKey.ec.injEq, CapsuleKind.ec.injEq]
          constructor
          · intro matched
            exact (EcPublicKey.encode_injective matched.2).symm
          · intro equal
            rw [equal]
            exact ⟨rfl, rfl⟩
      | rsa key => simp [record, StoredCapsule.isFor]
  | rsa recipient encoded keyMaterial =>
      cases key with
      | ec key => simp [record, StoredCapsule.isFor]
      | rsa key =>
          simp only [record, StoredCapsule.isFor, Option.getD_some, Bool.and_eq_true, beq_iff_eq,
            PublicKey.rsa.injEq]
          constructor
          · intro matched
            exact RsaPublicKey.eq_of_encode? matched.2 encoded
          · intro equal
            rw [equal]
            exact ⟨trivial, encoded⟩

theorem IsFor.isSome_recipient {c : Capsule} {owner : PublicKey} (addressed : c.IsFor owner) :
    some (c.recipient.getD []) = c.recipient := by
  cases addressed <;> rfl

variable {c : Capsule} {policy : ExpiryPolicy} {requested : Option Instant} {now : Instant}
  {draws : Draws} {s : Store} {entropy : Bytes}

theorem store_of_invalid {e : CapsuleError} (invalid : c.validate = .error e) :
    c.store policy requested now draws (.ofStore s) = (.ofStore s, .error e) := by
  simp only [store, invalid]

theorem store_of_free (valid : c.validate = .ok ()) (drawn : draws 0 = .ok entropy)
    (free : s.find? (TransactionId.ofBytes entropy) = none) :
    c.store policy requested now draws (.ofStore s) =
      (.ofStore (s.push (Call.entry policy c requested now entropy) free),
        .ok (Call.entry policy c requested now entropy).receipt) := by
  have inserted : insertFresh (c.record (policy.resolve requested now) now) draws maxRetries 0
      (.ofStore s) = (.ofStore (s.push (Call.entry policy c requested now entropy) free),
        .ok (Call.entry policy c requested now entropy)) :=
    insertFresh_of_free maxRetries 0 drawn rfl free
  simp only [store, valid, inserted]
  rfl

end Capsule

namespace Storage

variable {s : Store} {id : String} {r : StoredCapsule}

theorem fetch_of_none (missing : s.find? id = none) (key : PublicKey) :
    ((ofStore s).fetch id key).2 = .error .notFound := by
  unfold fetch
  split
  next =>
    simp only [find, call, ofStore, missing]
    rfl
  next => rfl

theorem fetch_of_some (issued : TransactionId.Issued id) (found : s.find? id = some r)
    (key : PublicKey) :
    ((ofStore s).fetch id key).2 =
      if r.isFor key = true then .ok r.toCapsule else .error .notFound := by
  simp only [fetch, if_pos issued.isWellFormed, find, call, ofStore, found, ok_bind]
  rfl

end Storage

namespace Service

variable {policy : ExpiryPolicy} {s : Service} {id : String} {r : StoredCapsule}

/-- What a run of further calls, begun with no changes yet, leaves of a record. -/
structure Fate (r : StoredCapsule) (s : Service) : Prop where
  /-- The record stays until a sweep past its expiry. -/
  stays : ¬ SweptPast r.expiry s.changes → s.store.find? r.id = some r
  /-- The first such sweep takes it out, and what is gone stays gone while its id is not given out. -/
  goes : ∀ {front now back}, s.changes = front ++ .swept now :: back →
    ¬ SweptPast r.expiry front → r.expiry < now →
    (∀ number r', .inserted number r' ∈ back → r'.id ≠ r.id) → s.store.find? r.id = none

theorem Fate.of_took {s' : Service} {e : Event} (fate : Fate r s) (took : Took policy s e s') :
    Fate r s' := by
  cases took with
  | began => exact ⟨fate.stays, fate.goes⟩
  | missed => exact fate
  | moved => exact ⟨fate.stays, fate.goes⟩
  | @inserted number capsule requested now retries entropy waiting free =>
      constructor
      · intro current
        exact Store.find?_push_of_some free
          (fate.stays fun swept => current (swept.append _))
      · intro front now' back cut before expired others
        rcases concat_eq_append_cons cut with ⟨_, same⟩ | ⟨back', rfl, cut'⟩
        · cases same
        · have other := others number _ (List.mem_append_right _ List.mem_cons_self)
          refine (Store.find?_push_of_ne free other).trans (fate.goes cut' before expired ?_)
          intro number' r' member
          exact others number' r' (List.mem_append_left _ member)
  | @swept number draw now removed waiting =>
      constructor
      · intro current
        refine Store.find?_sweep_of_not_expired
          (fate.stays fun swept => current (swept.append _)) ?_
        intro expired
        exact current ⟨now, by simp, expired⟩
      · intro front now' back cut before expired others
        rcases concat_eq_append_cons cut with ⟨rfl, same⟩ | ⟨back', rfl, cut'⟩
        · cases same
          exact Store.find?_sweep_of_expired (fate.stays before) expired
        · refine Store.find?_sweep_of_none (fate.goes cut' before expired ?_)
          intro number' r' member
          exact others number' r' (List.mem_append_left _ member)

theorem Fate.run (fate : Fate r s) (events : List Event) : Fate r (s.run policy events) := by
  -- By induction on the events, the last one first.
  induction events using List.reverseRecOn with
  | nil => exact fate
  | append_singleton events e ih =>
      rw [run_concat]
      exact ih.of_took (step_took policy _ e)

theorem fate_of_find? {s : Store} (found : s.find? r.id = some r) (calls : List Call) :
    Fate r ⟨s, calls, []⟩ where
  stays := fun _ => found
  goes := by simp

/--
When the id that is drawn for a capsule is free, the capsule is stored if and only if it is for some
key: a curve key, with points of that curve in both fields, or an RSA key. Whatever calls are open
and begin afterwards, in whatever order their steps come, that key and no other gets the capsule
under the id of the receipt, until the first sweep past the expiry. From then on nobody gets anything
under that id until it is given out again.
-/
theorem released_to_one (policy : ExpiryPolicy) (c : Capsule) (requested : Option Instant)
    (now : Instant) (draws : Nat → Draw) (s : Store)
    (entropy : { entropy : Bytes // entropy.length = TransactionId.entropySize })
    (drawn : draws 0 = .ok entropy) (free : s.find? (TransactionId.ofBytes entropy) = none) :
    let stored := c.store policy requested now (fun n => (draws n).bytes) (.ofStore s)
    ((∃ receipt, stored.2 = .ok receipt) ↔ ∃ key, c.IsFor key) ∧
    ∀ receipt, stored.2 = .ok receipt →
      receipt.id = TransactionId.ofBytes entropy ∧
      ∃ owner, c.IsFor owner ∧ ∀ (calls : List Call) (events : List Event),
        let later := run policy ⟨stored.1.store, calls, []⟩ events
        let answer := fun key => ((Storage.ofStore later.store).fetch receipt.id key).2
        (¬ SweptPast receipt.expiry later.changes →
          answer owner = .ok ⟨c.kind, c.recipient, some (c.keyMaterial.getD [])⟩ ∧
          ∀ other, other ≠ owner → answer other = .error .notFound) ∧
        (∀ front past back, later.changes = front ++ .swept past :: back →
          ¬ SweptPast receipt.expiry front → receipt.expiry < past →
          (∀ number r, .inserted number r ∈ back → r.id ≠ receipt.id) →
          ∀ key, answer key = .error .notFound) := by
  have bytes : (draws 0).bytes = .ok entropy.1 := by rw [drawn]; rfl
  intro stored
  have valid_of_ok : ∀ {receipt}, stored.2 = .ok receipt → c.validate = .ok () := by
    intro receipt returned
    cases checked : c.validate with
    | ok => rfl
    | error e =>
        have refused : stored = (.ofStore s, .error e) := Capsule.store_of_invalid checked
        rw [refused] at returned
        cases returned
  have stored_of_valid (valid : c.validate = .ok ()) :
      stored = (.ofStore (s.push (Call.entry policy c requested now entropy) free),
        .ok (Call.entry policy c requested now entropy).receipt) :=
    Capsule.store_of_free valid bytes free
  constructor
  · rw [← Capsule.validate_eq_ok_iff]
    constructor
    · intro returned
      obtain ⟨receipt, returned⟩ := returned
      exact valid_of_ok returned
    · intro valid
      exact ⟨_, congrArg Prod.snd (stored_of_valid valid)⟩
  · intro receipt returned
    have valid := valid_of_ok returned
    obtain ⟨owner, addressed⟩ := Capsule.validate_eq_ok_iff.mp valid
    rw [stored_of_valid valid] at returned ⊢
    cases returned
    refine ⟨rfl, owner, addressed, ?_⟩
    intro calls events later answer
    have fate : Fate (Call.entry policy c requested now entropy) later :=
      (fate_of_find? (Store.find?_push_self free) calls).run events
    constructor
    · intro current
      have answers (key : PublicKey) : answer key =
          if key = owner then
            .ok (Call.entry policy c requested now entropy).toCapsule else .error .notFound := by
        simp only [← addressed.isFor_record_iff (policy.resolve requested now) now
          (TransactionId.ofBytes entropy)]
        exact Storage.fetch_of_some (TransactionId.issued_ofBytes entropy.2) (fate.stays current) key
      constructor
      · rw [answers owner, if_pos rfl]
        simp only [StoredCapsule.toCapsule, Capsule.record, addressed.isSome_recipient]
      · intro other different
        rw [answers other, if_neg different]
    · intro front past back cut before expired others key
      exact Storage.fetch_of_none (fate.goes cut before expired others) key

def smallKey : RsaPublicKey := ⟨[5], [3], rfl, rfl⟩

def crowdedStore : Store := (idle.run .standard (crowdedEvents.take 5)).store

def laterEvents : List Event :=
  [.begin (.store smallCapsule none .first), .advance 0 (repeatedDraw 9),
    .advance 0 (repeatedDraw 10), .begin (.expire .last), .begin (.fetch "KC" (.rsa smallKey)),
    .advance 1 (repeatedDraw 0), .advance 2 (repeatedDraw 0)]

/-- The capsule is there before the sweep and gone after it. -/
theorem smallCapsule_released :
    let id := TransactionId.ofBytes (List.replicate 16 9)
    let stored := smallCapsule.store .standard (some .first) .first (fun _ => (repeatedDraw 9).bytes)
      (.ofStore crowdedStore)
    let before := run .standard ⟨stored.1.store, [], []⟩ (laterEvents.take 5)
    let after := run .standard ⟨stored.1.store, [], []⟩ laterEvents
    crowdedStore.find? id = none ∧ stored.2 = .ok ⟨id, .first, false⟩ ∧
      ((Storage.ofStore before.store).fetch id (.rsa smallKey)).2 = .ok smallCapsule ∧
      (∀ other, other ≠ .rsa smallKey →
        ((Storage.ofStore before.store).fetch id other).2 = .error .notFound) ∧
      ∀ key, ((Storage.ofStore after.store).fetch id key).2 = .error .notFound := by
  intro id stored before after
  have free : crowdedStore.find? id = none := by decide +kernel
  have returned : stored.2 = .ok ⟨id, .first, false⟩ := by decide +kernel
  have released := released_to_one .standard smallCapsule (some .first) .first
    (fun _ => repeatedDraw 9) crowdedStore ⟨List.replicate 16 9, rfl⟩ rfl free
  obtain ⟨_, owner, addressed, always⟩ := released.2 _ returned
  have own : owner = .rsa smallKey := by
    cases addressed with
    | rsa recipient encoded =>
        have written : smallKey.encode? = some [0x30, 6, 2, 1, 5, 2, 1, 3] := by decide +kernel
        rw [RsaPublicKey.eq_of_encode? encoded written]
  subst own
  have unswept : before.changes =
      [.inserted 0 (Call.entry .standard smallCapsule none .first (List.replicate 16 10))] := by
    decide +kernel
  have swept : after.changes =
      [.inserted 0 (Call.entry .standard smallCapsule none .first (List.replicate 16 10))] ++
        .swept .last :: [] := by
    decide +kernel
  have none_yet (number : Nat) (r : StoredCapsule) : ¬ SweptPast .first [.inserted number r] := by
    simp [SweptPast]
  have current := (always [] (laterEvents.take 5)).1 (by rw [unswept]; exact none_yet _ _)
  have gone := (always [] laterEvents).2 _ _ _ swept (none_yet _ _) (by decide) (by simp)
  exact ⟨free, returned, current.1, current.2, gone⟩

end Service

end SealedContainer
