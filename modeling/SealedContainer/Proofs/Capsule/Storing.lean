import SealedContainer.Proofs.Capsule.Calls

/-!
What one call to store a capsule does to a storage, whichever ids are drawn for it and whatever goes
wrong inside. Main statement: it adds one record, under an id that was free, or it changes no record
(`store_stores`).
-/

namespace SealedContainer

theorem Draw.length_of_bytes {draw : Draw} {entropy : Bytes} (drawn : draw.bytes = .ok entropy) :
    entropy.length = TransactionId.entropySize := by
  cases draw with
  | error e => cases drawn
  | ok sized =>
      cases drawn
      exact sized.2

namespace Storage

/-- A call goes through, or it fails and changes nothing. No new faults come up. -/
inductive Called {α : Type} (s : Storage) (run : Store → Store × Except CapsuleError α) :
    Storage × Except CapsuleError α → Prop
  | through {faults : List (Option CapsuleError)} (left : faults <:+ s.faults) :
    Called s run (⟨(run s.store).1, faults⟩, (run s.store).2)
  | failed (e : CapsuleError) {faults : List (Option CapsuleError)} (left : faults <:+ s.faults) :
    Called s run (⟨s.store, faults⟩, .error e)

theorem call_called {α : Type} (s : Storage) (run : Store → Store × Except CapsuleError α) :
    s.Called run (s.call run) := by
  obtain ⟨store, faults⟩ := s
  cases faults with
  | nil => exact .through List.suffix_rfl
  | cons fault rest =>
      cases fault with
      | none => exact .through (List.suffix_cons none rest)
      | some e => exact .failed e (List.suffix_cons (some e) rest)

inductive Inserted (s : Storage) (r : StoredCapsule) : Storage × Except CapsuleError Unit → Prop
  | added {faults : List (Option CapsuleError)} (left : faults <:+ s.faults)
    (free : s.store.find? r.id = none) : Inserted s r (⟨s.store.push r free, faults⟩, .ok ())
  | refused (e : CapsuleError) {faults : List (Option CapsuleError)} (left : faults <:+ s.faults) :
    Inserted s r (⟨s.store, faults⟩, .error e)

theorem insert_inserted (s : Storage) (r : StoredCapsule) : s.Inserted r (s.insert r) := by
  unfold insert
  generalize ran : s.call _ = result
  cases ran ▸ s.call_called _ with
  | failed e left => exact .refused e left
  | through left =>
      cases found : s.store.find? r.id with
      | none =>
          simp only [Store.insert_of_none found]
          exact .added left found
      | some taken =>
          simp only [Store.insert_of_some found]
          exact .refused _ left

end Storage

namespace Capsule

inductive Inserts (make : String → StoredCapsule) (draws : Draws) (s : Storage) :
    Storage × Except CapsuleError StoredCapsule → Prop
  | added {n : Nat} {entropy : Bytes} {faults : List (Option CapsuleError)}
    (left : faults <:+ s.faults) (drawn : draws n = .ok entropy)
    (free : s.store.find? (make (TransactionId.ofBytes entropy)).id = none) :
    Inserts make draws s (⟨s.store.push (make (TransactionId.ofBytes entropy)) free, faults⟩,
      .ok (make (TransactionId.ofBytes entropy)))
  | refused (e : CapsuleError) {faults : List (Option CapsuleError)} (left : faults <:+ s.faults) :
    Inserts make draws s (⟨s.store, faults⟩, .error e)

inductive Stores (c : Capsule) (policy : ExpiryPolicy) (requested : Option Instant) (now : Instant)
    (draws : Draws) (s : Storage) : Storage × Except CapsuleError Receipt → Prop
  | added {n : Nat} {entropy : Bytes} {faults : List (Option CapsuleError)}
    (left : faults <:+ s.faults) (valid : c.validate = .ok ()) (drawn : draws n = .ok entropy)
    (free : s.store.find? (TransactionId.ofBytes entropy) = none) :
    Stores c policy requested now draws s
      (⟨s.store.push (Call.entry policy c requested now entropy) free, faults⟩,
        .ok (Call.entry policy c requested now entropy).receipt)
  | refused (e : CapsuleError) {faults : List (Option CapsuleError)} (left : faults <:+ s.faults) :
    Stores c policy requested now draws s (⟨s.store, faults⟩, .error e)

variable {make : String → StoredCapsule} {draws : Draws} {s : Storage}

theorem Inserts.of_later {faults : List (Option CapsuleError)} (left : faults <:+ s.faults)
    {result : Storage × Except CapsuleError StoredCapsule}
    (later : Inserts make draws ⟨s.store, faults⟩ result) : Inserts make draws s result := by
  cases later with
  | added fewer drawn free => exact .added (fewer.trans left) drawn free
  | refused e fewer => exact .refused e (fewer.trans left)

theorem insertFresh_inserts (make : String → StoredCapsule) (draws : Draws) (s : Storage)
    (retries n : Nat) : Inserts make draws s (insertFresh make draws retries n s) := by
  -- By recursion on the tries that are left.
  rw [insertFresh.eq_def]
  cases drawn : draws n with
  | error e => exact .refused _ List.suffix_rfl
  | ok entropy =>
      have inserted := s.insert_inserted (make (TransactionId.ofBytes entropy))
      simp only
      generalize s.insert (make (TransactionId.ofBytes entropy)) = result at inserted ⊢
      cases inserted with
      | added left free => exact .added left drawn free
      | refused e left =>
          cases e with
          | duplicate id =>
              cases retries with
              | zero => exact .refused _ left
              | succ retries =>
                  exact .of_later left (insertFresh_inserts make draws _ retries (n + 1))
          | _ => exact .refused _ left
termination_by retries

theorem store_stores (c : Capsule) (policy : ExpiryPolicy) (requested : Option Instant)
    (now : Instant) (draws : Draws) (s : Storage) :
    c.Stores policy requested now draws s (c.store policy requested now draws s) := by
  simp only [store]
  cases valid : c.validate with
  | error e => exact .refused e List.suffix_rfl
  | ok =>
      have inserts := insertFresh_inserts (c.record (policy.resolve requested now) now) draws s
        maxRetries 0
      generalize insertFresh (c.record (policy.resolve requested now) now) draws maxRetries 0 s =
        inserted at inserts ⊢
      cases inserts with
      | added left drawn free => exact .added left valid drawn free
      | refused e left => exact .refused e left

end Capsule

end SealedContainer
