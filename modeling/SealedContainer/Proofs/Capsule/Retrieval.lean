import SealedContainer.Proofs.Capsule.Release
import SealedContainer.Proofs.Capsule.Storing

/-!
What a recipient gets back. Main statement: `retrieved_as_stored`. It is the capsule that the sender
left, with one exception: records have no place for key material that is absent, so an RSA capsule
without any comes back with an empty one.
-/

namespace SealedContainer

namespace Capsule

variable {c : Capsule} {owner other : PublicKey}

theorem IsFor.eq (addressed : c.IsFor owner) (too : c.IsFor other) : other = owner := by
  have released := (too.isFor_record_iff ⟨.first, false⟩ .first "").mpr rfl
  exact (addressed.isFor_record_iff ⟨.first, false⟩ .first "").mp released

theorem IsFor.rsa_of_none (addressed : c.IsFor owner) (absent : c.keyMaterial = none) :
    c.kind = .rsa := by
  cases addressed with
  | ec recipient sender same => cases absent
  | rsa recipient encoded keyMaterial => rfl

theorem IsFor.toCapsule_record (addressed : c.IsFor owner) (resolved : ResolvedExpiry)
    (now : Instant) (id : String) :
    (c.record resolved now id).toCapsule = { c with keyMaterial := some (c.keyMaterial.getD []) } := by
  simp only [StoredCapsule.toCapsule, record, addressed.isSome_recipient]

end Capsule

namespace Service

/--
When a capsule is stored, whichever draws of ids it took, there is one key that it is for. Whatever
calls are open and begin afterwards, in whatever order their steps come, the holder of that key gets
the capsule under the id of the receipt as long as no sweep takes it out: of the same kind, for the
same recipient and with the same key material. Only if the sender left out the key material, which
is possible for RSA alone, it is there and empty.
-/
theorem retrieved_as_stored (policy : ExpiryPolicy) (c : Capsule) (requested : Option Instant)
    (now : Instant) (draws : Nat → Draw) (s : Store) (receipt : Receipt)
    (returned : (c.store policy requested now (fun n => (draws n).bytes) (.ofStore s)).2 =
      .ok receipt) :
    let stored := (c.store policy requested now (fun n => (draws n).bytes) (.ofStore s)).1.store
    ∃ owner, (∀ key, c.IsFor key ↔ key = owner) ∧
      ∀ (calls : List Call) (events : List Event),
        let later := run policy ⟨stored, calls, []⟩ events
        ¬ SweptPast receipt.expiry later.changes →
          ∃ found, ((Storage.ofStore later.store).fetch receipt.id owner).2 = .ok found ∧
            found.kind = c.kind ∧ found.recipient = c.recipient ∧
            (c.keyMaterial ≠ none → found.keyMaterial = c.keyMaterial) ∧
            (c.keyMaterial = none → c.kind = .rsa ∧ found.keyMaterial = some []) := by
  intro stored
  have stores := Capsule.store_stores c policy requested now (fun n => (draws n).bytes) (.ofStore s)
  simp only [stored]
  generalize c.store policy requested now (fun n => (draws n).bytes) (.ofStore s) = result
    at stores returned ⊢
  cases stores with
  | refused e => cases returned
  | @added n entropy faults left valid drawn free =>
      cases returned
      obtain ⟨owner, addressed⟩ := Capsule.validate_eq_ok_iff.mp valid
      refine ⟨owner, fun key => ⟨addressed.eq, fun same => same ▸ addressed⟩, ?_⟩
      intro calls events current
      have fate : Fate (Call.entry policy c requested now entropy)
          (run policy ⟨s.push (Call.entry policy c requested now entropy) free, calls, []⟩ events) :=
        (fate_of_find? (Store.find?_push_self free) calls).run events
      have issued := TransactionId.issued_ofBytes (Draw.length_of_bytes drawn)
      have own : (Call.entry policy c requested now entropy).isFor owner = true :=
        (addressed.isFor_record_iff _ now _).mpr rfl
      have answer := Storage.fetch_of_some issued (fate.stays current) owner
      rw [if_pos own, addressed.toCapsule_record] at answer
      refine ⟨_, answer, rfl, rfl, ?_, ?_⟩
      · intro given
        obtain ⟨bytes, material⟩ := Option.ne_none_iff_exists'.mp given
        simp only [material, Option.getD_some]
      · intro absent
        exact ⟨addressed.rsa_of_none absent, by simp only [absent, Option.getD_none]⟩

def bareCapsule : Capsule := { smallCapsule with keyMaterial := none }

def secondFree : Nat → Draw
  | 0 => repeatedDraw 7
  | _ => repeatedDraw 9

/-- The capsule without key material is stored at the second try, and comes back with an empty one. -/
theorem bareCapsule_retrieved :
    let id := TransactionId.ofBytes (List.replicate 16 9)
    let stored := bareCapsule.store .standard (some .first) .first (fun n => (secondFree n).bytes)
      (.ofStore crowdedStore)
    let later := run .standard ⟨stored.1.store, [], []⟩ (laterEvents.take 5)
    stored.2 = .ok ⟨id, .first, false⟩ ∧ ¬ SweptPast .first later.changes ∧
      ∃ found, ((Storage.ofStore later.store).fetch id (.rsa smallKey)).2 = .ok found ∧
        found.kind = .rsa ∧ found.recipient = bareCapsule.recipient ∧
        found.keyMaterial = some [] := by
  intro id stored later
  have returned : stored.2 = .ok ⟨id, .first, false⟩ := by decide +kernel
  obtain ⟨owner, addressed, always⟩ := retrieved_as_stored .standard bareCapsule (some .first)
    .first secondFree crowdedStore _ returned
  have own : .rsa smallKey = owner := by
    apply (addressed _).mp
    have written : smallKey.encode? = some [0x30, 6, 2, 1, 5, 2, 1, 3] := by decide +kernel
    exact .rsa smallKey written none
  subst own
  have changed : later.changes =
      [.inserted 0 (Call.entry .standard smallCapsule none .first (List.replicate 16 10))] := by
    decide +kernel
  have current : ¬ SweptPast .first later.changes := by
    rw [changed]
    simp [SweptPast]
  obtain ⟨found, answer, kind, recipient, _, material⟩ := always [] (laterEvents.take 5) current
  exact ⟨returned, current, found, answer, kind, recipient, (material rfl).2⟩

/-- So the capsule that comes back need not be the one that was stored. -/
theorem bareCapsule_not_returned :
    let stored := bareCapsule.store .standard none .first (fun _ => (repeatedDraw 9).bytes)
      (.ofStore .empty)
    let id := TransactionId.ofBytes (List.replicate 16 9)
    (∃ receipt, stored.2 = .ok receipt ∧ receipt.id = id) ∧ bareCapsule.IsFor (.rsa smallKey) ∧
      (stored.1.fetch id (.rsa smallKey)).2 = .ok smallCapsule ∧
      (stored.1.fetch id (.rsa smallKey)).2 ≠ .ok bareCapsule := by
  intro stored id
  have returned : stored.2 =
      .ok ⟨id, (ExpiryPolicy.standard.resolve none .first).expiry, false⟩ := by decide +kernel
  have written : smallKey.encode? = some [0x30, 6, 2, 1, 5, 2, 1, 3] := by decide +kernel
  have fetched : (stored.1.fetch id (.rsa smallKey)).2 = .ok smallCapsule := by decide +kernel
  have other : smallCapsule ≠ bareCapsule := by decide
  refine ⟨⟨_, returned, rfl⟩, .rsa smallKey written none, fetched, ?_⟩
  intro same
  rw [fetched] at same
  exact other (Except.ok.inj same)

end Service

end SealedContainer
