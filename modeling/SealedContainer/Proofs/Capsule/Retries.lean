import SealedContainer.Proofs.Capsule.Retrieval

/-!
The ids that a call to store a capsule draws. Main statement: `stored_at_first_free`. The capsule is
stored under the first id that is free, if that is among the first three. If a draw fails before, or
there is no such id, the call fails and the store is as it was. The draws are counted, and those
beyond the count make no difference to the call.
-/

namespace SealedContainer

namespace Draws

def next (draws : Draws) : StateM Nat (Except CryptoError Bytes) :=
  modifyGet fun n => (draws n, n + 1)

theorem run_next (draws : Draws) (n : Nat) : draws.next.run n = pure (draws n, n + 1) := rfl

def TakenAt (draws : Draws) (s : Store) (n : Nat) : Prop :=
  ∃ entropy record, draws n = .ok entropy ∧ s.find? (TransactionId.ofBytes entropy) = some record

def FreeAt (draws : Draws) (s : Store) (n : Nat) : Prop :=
  ∃ entropy, draws n = .ok entropy ∧ s.find? (TransactionId.ofBytes entropy) = none

theorem all_taken_or_first (draws : Draws) (s : Store) (n : Nat) :
    (∀ i < n, draws.TakenAt s i) ∨
      ∃ j < n, (∀ i < j, draws.TakenAt s i) ∧
        (draws.FreeAt s j ∨ ∃ e, draws j = .error e) := by
  induction n with
  | zero => exact .inl fun i before => absurd before (Nat.not_lt_zero i)
  | succ n ih =>
      cases ih with
      | inr first =>
          obtain ⟨j, inside, before, stop⟩ := first
          exact .inr ⟨j, Nat.lt_succ_of_lt inside, before, stop⟩
      | inl taken =>
          cases drawn : draws n with
          | error e => exact .inr ⟨n, Nat.lt_succ_self n, taken, .inr ⟨e, drawn⟩⟩
          | ok entropy =>
              cases found : s.find? (TransactionId.ofBytes entropy) with
              | none => exact .inr ⟨n, Nat.lt_succ_self n, taken, .inl ⟨entropy, drawn, found⟩⟩
              | some record =>
                  left
                  intro i before
                  rcases Nat.lt_succ_iff_lt_or_eq.mp before with earlier | rfl
                  · exact taken i earlier
                  · exact ⟨entropy, record, drawn, found⟩

end Draws

namespace Capsule

def tryDraw (record : String → StoredCapsule) (draw : Except CryptoError Bytes) (s : Storage) :
    Storage × Except CapsuleError StoredCapsule :=
  match draw with
  | .error e => (s, .error (.crypto e))
  | .ok entropy =>
    let entry := record (TransactionId.ofBytes entropy)
    let (s, result) := s.insert entry
    (s, result.map fun _ => entry)

/-- Does what `insertFresh` does, with the draws handed out one by one. -/
def insertCounted (record : String → StoredCapsule) (draws : Draws) :
    (retries : Nat) → Storage → StateM Nat (Storage × Except CapsuleError StoredCapsule)
  | 0, s => return tryDraw record (← draws.next) s
  | retries + 1, s => do
    match tryDraw record (← draws.next) s with
    | (s, .error (.duplicate _)) => insertCounted record draws retries s
    | ended => return ended

def storeCounted (c : Capsule) (policy : ExpiryPolicy) (requested : Option Instant) (now : Instant)
    (draws : Draws) (s : Storage) : StateM Nat (Storage × Except CapsuleError Receipt) :=
  match c.validate with
  | .error e => return (s, .error e)
  | .ok () => do
    let record := c.record (policy.resolve requested now) now
    let (s, result) ← insertCounted record draws maxRetries s
    return (s, result.map StoredCapsule.receipt)

/-- The storage after a try that is followed by another, which is one whose id was taken. -/
def again? : Storage × Except CapsuleError StoredCapsule → Option Storage
  | (s, .error (.duplicate _)) => some s
  | _ => none

variable {make : String → StoredCapsule} {draws : Draws}

section Counted

variable (retries n : Nat) (s : Storage)

theorem insertFresh_eq :
    insertFresh make draws retries n s =
      match retries, again? (tryDraw make (draws n) s) with
      | retries + 1, some s' => insertFresh make draws retries (n + 1) s'
      | _, _ => tryDraw make (draws n) s := by
  rw [insertFresh.eq_def]
  cases draws n with
  | error e => cases retries <;> rfl
  | ok entropy =>
      simp only [tryDraw]
      generalize s.insert (make (TransactionId.ofBytes entropy)) = inserted
      obtain ⟨s', result⟩ := inserted
      cases result with
      | ok => cases retries <;> rfl
      | error e => cases e <;> cases retries <;> rfl

theorem insertFresh_zero : insertFresh make draws 0 n s = tryDraw make (draws n) s := by
  rw [insertFresh_eq]

theorem insertFresh_succ :
    insertFresh make draws (retries + 1) n s =
      match again? (tryDraw make (draws n) s) with
      | some s' => insertFresh make draws retries (n + 1) s'
      | none => tryDraw make (draws n) s := by
  rw [insertFresh_eq]
  cases again? (tryDraw make (draws n) s) <;> rfl

theorem run_insertCounted_zero :
    (insertCounted make draws 0 s).run n = pure (tryDraw make (draws n) s, n + 1) := rfl

theorem run_insertCounted_succ :
    (insertCounted make draws (retries + 1) s).run n =
      match again? (tryDraw make (draws n) s) with
      | some s' => (insertCounted make draws retries s').run (n + 1)
      | none => pure (tryDraw make (draws n) s, n + 1) := by
  rw [insertCounted, StateT.run_bind, Draws.run_next, pure_bind]
  generalize tryDraw make (draws n) s = first
  obtain ⟨s', result⟩ := first
  cases result with
  | ok => rfl
  | error e => cases e <;> rfl

theorem fst_insertCounted :
    ((insertCounted make draws retries s).run n).1 = insertFresh make draws retries n s := by
  -- By induction on the tries that are left, as the next two.
  induction retries generalizing n s with
  | zero => rw [run_insertCounted_zero, insertFresh_zero]; rfl
  | succ retries ih =>
      rw [run_insertCounted_succ, insertFresh_succ]
      cases again? (tryDraw make (draws n) s) with
      | none => rfl
      | some s' => exact ih (n + 1) s'

theorem snd_insertCounted :
    n + 1 ≤ ((insertCounted make draws retries s).run n).2 ∧
      ((insertCounted make draws retries s).run n).2 ≤ n + 1 + retries := by
  induction retries generalizing n s with
  | zero => exact ⟨Nat.le_refl _, Nat.le_refl _⟩
  | succ retries ih =>
      rw [run_insertCounted_succ]
      cases again? (tryDraw make (draws n) s) with
      | none => exact ⟨Nat.le_refl _, Nat.le_add_right _ _⟩
      | some s' =>
          have later := ih (n + 1) s'
          simp only
          omega

theorem insertFresh_congr {draws' : Draws}
    (same : ∀ i, n ≤ i → i < ((insertCounted make draws retries s).run n).2 →
      draws' i = draws i) :
    insertFresh make draws' retries n s = insertFresh make draws retries n s := by
  have first : draws' n = draws n := same n (Nat.le_refl n) (snd_insertCounted retries n s).1
  induction retries generalizing n s with
  | zero => rw [insertFresh_zero, insertFresh_zero, first]
  | succ retries ih =>
      rw [insertFresh_succ, insertFresh_succ, first]
      rw [run_insertCounted_succ] at same
      cases ended : again? (tryDraw make (draws n) s) with
      | none => rfl
      | some s' =>
          simp only [ended] at same ⊢
          have others : ∀ i, n + 1 ≤ i →
              i < ((insertCounted make draws retries s').run (n + 1)).2 → draws' i = draws i :=
            fun i after => same i (Nat.le_of_succ_le after)
          exact ih (n + 1) s' others
            (others _ (Nat.le_refl _) (snd_insertCounted retries (n + 1) s').1)

theorem run_insertCounted_of_last (last : again? (tryDraw make (draws n) s) = none) :
    (insertCounted make draws retries s).run n = pure (tryDraw make (draws n) s, n + 1) := by
  cases retries with
  | zero => rfl
  | succ retries => rw [run_insertCounted_succ, last]

end Counted

section Tries

variable {s : Store} (own : ∀ id, (make id).id = id) {retries j : Nat} {entropy : Bytes}
include own

theorem tryDraw_of_free (free : s.find? (TransactionId.ofBytes entropy) = none) :
    tryDraw make (.ok entropy) (.ofStore s) =
      (.ofStore (s.push (make (TransactionId.ofBytes entropy)) ((own _).symm ▸ free)),
        .ok (make (TransactionId.ofBytes entropy))) := by
  rw [← @insertFresh_zero make (fun _ => .ok entropy) 0]
  exact insertFresh_of_free 0 0 rfl (own _) free

theorem tryDraw_of_taken {record : StoredCapsule}
    (found : s.find? (TransactionId.ofBytes entropy) = some record) :
    tryDraw make (.ok entropy) (.ofStore s) =
      (.ofStore s, .error (.duplicate (TransactionId.ofBytes entropy))) := by
  rw [← @insertFresh_zero make (fun _ => .ok entropy) 0]
  exact insertFresh_of_taken 0 0 rfl (own _) found

/-- After some ids that are taken, the other tries are left for the draws after them. By induction
on the number of these ids. -/
theorem run_insertCounted_of_taken (taken : ∀ i < j, draws.TakenAt s i) (few : j ≤ retries) :
    (insertCounted make draws retries (.ofStore s)).run 0 =
      (insertCounted make draws (retries - j) (.ofStore s)).run j := by
  induction j with
  | zero => rfl
  | succ j ih =>
      obtain ⟨entropy, record, drawn, found⟩ := taken j (Nat.lt_succ_self j)
      have left : retries - j = retries - (j + 1) + 1 := by omega
      rw [ih (fun i before => taken i (Nat.lt_succ_of_lt before)) (Nat.le_of_succ_le few), left,
        run_insertCounted_succ, drawn, tryDraw_of_taken own found]
      rfl

theorem run_insertCounted_of_free (taken : ∀ i < j, draws.TakenAt s i) (few : j ≤ retries)
    (drawn : draws j = .ok entropy) (free : s.find? (TransactionId.ofBytes entropy) = none) :
    (insertCounted make draws retries (.ofStore s)).run 0 =
      pure ((.ofStore (s.push (make (TransactionId.ofBytes entropy)) ((own _).symm ▸ free)),
        .ok (make (TransactionId.ofBytes entropy))), j + 1) := by
  have single := tryDraw_of_free own free
  rw [run_insertCounted_of_taken own taken few, run_insertCounted_of_last, drawn, single]
  rw [drawn, single]
  rfl

theorem run_insertCounted_of_error (taken : ∀ i < j, draws.TakenAt s i) (few : j ≤ retries)
    {e : CryptoError} (failed : draws j = .error e) :
    (insertCounted make draws retries (.ofStore s)).run 0 =
      pure ((.ofStore s, .error (.crypto e)), j + 1) := by
  rw [run_insertCounted_of_taken own taken few, run_insertCounted_of_last, failed]
  · rfl
  · rw [failed]
    rfl

theorem run_insertCounted_of_crowded (taken : ∀ i < retries, draws.TakenAt s i)
    (drawn : draws retries = .ok entropy) {record : StoredCapsule}
    (found : s.find? (TransactionId.ofBytes entropy) = some record) :
    (insertCounted make draws retries (.ofStore s)).run 0 =
      pure ((.ofStore s, .error (.duplicate (TransactionId.ofBytes entropy))), retries + 1) := by
  rw [run_insertCounted_of_taken own taken (Nat.le_refl _), Nat.sub_self,
    run_insertCounted_zero, drawn, tryDraw_of_taken own found]

end Tries

section Store

variable (c : Capsule) (policy : ExpiryPolicy) (requested : Option Instant) (now : Instant)
  (draws : Draws) (s : Storage)

theorem run_storeCounted_of_invalid {e : CapsuleError} (invalid : c.validate = .error e) :
    (c.storeCounted policy requested now draws s).run 0 = pure ((s, .error e), 0) := by
  simp only [storeCounted, invalid]
  rfl

theorem run_storeCounted_of_valid (valid : c.validate = .ok ()) {s' : Storage}
    {result : Except CapsuleError StoredCapsule} {count : Nat}
    (inserted : (insertCounted (c.record (policy.resolve requested now) now) draws maxRetries s).run
      0 = pure ((s', result), count)) :
    (c.storeCounted policy requested now draws s).run 0 =
      pure ((s', result.map StoredCapsule.receipt), count) := by
  simp only [storeCounted, valid, StateT.run_bind, inserted]
  rfl

theorem fst_storeCounted :
    ((c.storeCounted policy requested now draws s).run 0).1 =
      c.store policy requested now draws s := by
  unfold storeCounted store
  cases c.validate with
  | error e => rfl
  | ok =>
      have inserted :=
        @fst_insertCounted (c.record (policy.resolve requested now) now) draws maxRetries 0 s
      simp only
      rw [← inserted]
      rfl

theorem snd_storeCounted_le :
    ((c.storeCounted policy requested now draws s).run 0).2 ≤ maxRetries + 1 := by
  cases valid : c.validate with
  | error e =>
      rw [run_storeCounted_of_invalid c policy requested now draws s valid]
      exact Nat.zero_le _
  | ok =>
      have bound :=
        (@snd_insertCounted (c.record (policy.resolve requested now) now) draws maxRetries 0 s).2
      rw [Nat.zero_add, Nat.add_comm] at bound
      rw [run_storeCounted_of_valid c policy requested now draws s valid rfl]
      exact bound

theorem store_congr {draws' : Draws}
    (same : ∀ i < ((c.storeCounted policy requested now draws s).run 0).2, draws' i = draws i) :
    c.store policy requested now draws' s = c.store policy requested now draws s := by
  cases valid : c.validate with
  | error e => simp only [store, valid]
  | ok =>
      rw [run_storeCounted_of_valid c policy requested now draws s valid rfl] at same
      have inserted : insertFresh (c.record (policy.resolve requested now) now) draws' maxRetries 0
          s = insertFresh (c.record (policy.resolve requested now) now) draws maxRetries 0 s :=
        insertFresh_congr maxRetries 0 s fun i _ inside => same i inside
      simp only [store, valid, inserted]

end Store

/-- A call to store a capsule draws an id for each try, until one is free or three are taken. -/
theorem stored_at_first_free (c : Capsule) (policy : ExpiryPolicy) (requested : Option Instant)
    (now : Instant) (draws : Draws) (s : Store) :
    let resolved := policy.resolve requested now
    let call := c.store policy requested now draws (.ofStore s)
    ∃ count ≤ 3, (c.storeCounted policy requested now draws (.ofStore s)).run 0 = (call, count) ∧
      (∀ draws' : Draws, (∀ i < count, draws' i = draws i) →
        c.store policy requested now draws' (.ofStore s) = call) ∧
      (∀ e, c.validate = .error e → count = 0 ∧ call = (.ofStore s, .error e)) ∧
      (c.validate = .ok () →
        (∀ j < 3, (∀ i < j, draws.TakenAt s i) → ∀ entropy, draws j = .ok entropy →
          s.find? (TransactionId.ofBytes entropy) = none →
          count = j + 1 ∧ ∃ s' : Store,
            call = (.ofStore s',
              .ok ⟨TransactionId.ofBytes entropy, resolved.expiry, resolved.adjusted⟩) ∧
            s'.records = s.records ++
              [{ id := TransactionId.ofBytes entropy
                 kind := c.kind
                 recipient := c.recipient.getD []
                 payload := c.keyMaterial.getD []
                 expiry := resolved.expiry
                 adjusted := resolved.adjusted
                 created := now }]) ∧
        (∀ j < 3, (∀ i < j, draws.TakenAt s i) → ∀ e, draws j = .error e →
          count = j + 1 ∧ call = (.ofStore s, .error (.crypto e))) ∧
        ((∀ i < 3, draws.TakenAt s i) → ∀ entropy, draws 2 = .ok entropy →
          count = 3 ∧ call = (.ofStore s, .error (.duplicate (TransactionId.ofBytes entropy)))) ∧
        ((∀ i < 3, draws.TakenAt s i) ∨
          ∃ j < 3, (∀ i < j, draws.TakenAt s i) ∧
            (draws.FreeAt s j ∨ ∃ e, draws j = .error e))) := by
  intro resolved call
  have counted : ((c.storeCounted policy requested now draws (.ofStore s)).run 0).1 = call :=
    fst_storeCounted c policy requested now draws (.ofStore s)
  have own : ∀ id, (c.record resolved now id).id = id := fun _ => rfl
  -- What a run comes to says both what the call does and how many ids it draws.
  have settled : ∀ {result count},
      (c.storeCounted policy requested now draws (.ofStore s)).run 0 = pure (result, count) →
      ((c.storeCounted policy requested now draws (.ofStore s)).run 0).2 = count ∧
        call = result := by
    intro result count ran
    rw [← counted, ran]
    exact ⟨rfl, rfl⟩
  refine ⟨_, snd_storeCounted_le c policy requested now draws (.ofStore s),
    Prod.ext counted rfl, ?_, ?_, ?_⟩
  · intro draws' same
    exact store_congr c policy requested now draws (.ofStore s) same
  · intro e invalid
    exact settled (run_storeCounted_of_invalid c policy requested now draws _ invalid)
  · intro valid
    refine ⟨?_, ?_, ?_, draws.all_taken_or_first s 3⟩
    · intro j inside taken entropy drawn free
      have inserted := run_insertCounted_of_free own taken (Nat.le_of_lt_succ inside) drawn free
      obtain ⟨count, result⟩ :=
        settled (run_storeCounted_of_valid c policy requested now draws _ valid inserted)
      exact ⟨count, _, result, rfl⟩
    · intro j inside taken e failed
      have inserted := run_insertCounted_of_error own taken (Nat.le_of_lt_succ inside) failed
      exact settled (run_storeCounted_of_valid c policy requested now draws _ valid inserted)
    · intro taken entropy drawn
      obtain ⟨_, record, same, found⟩ := taken 2 (by decide)
      cases drawn.symm.trans same
      have inserted := run_insertCounted_of_crowded own
        (fun i before => taken i (Nat.lt_succ_of_lt before)) drawn found
      exact settled (run_storeCounted_of_valid c policy requested now draws _ valid inserted)

def thirdFree : Draws := fun n => .ok (List.replicate 16 (UInt8.ofNat (7 + n)))

theorem stored_at_third_id :
    let id := TransactionId.ofBytes (List.replicate 16 9)
    (∀ i < 2, thirdFree.TakenAt Service.crowdedStore i) ∧ Service.crowdedStore.find? id = none ∧
      ∃ s' : Store,
        Service.smallCapsule.store .standard (some .first) .first thirdFree
          (.ofStore Service.crowdedStore) = (.ofStore s', .ok ⟨id, .first, false⟩) ∧
        s'.records = Service.crowdedStore.records ++
          [Service.smallCapsule.record ⟨.first, false⟩ .first id] ∧
        ((Service.smallCapsule.storeCounted .standard (some .first) .first thirdFree
          (.ofStore Service.crowdedStore)).run 0).2 = 3 := by
  intro id
  have taken : ∀ i < 2, thirdFree.TakenAt Service.crowdedStore i := by
    intro i before
    have found : (Service.crowdedStore.find?
        (TransactionId.ofBytes (List.replicate 16 (UInt8.ofNat (7 + i))))).isSome := by
      revert i
      decide +kernel
    obtain ⟨record, found⟩ := Option.isSome_iff_exists.mp found
    exact ⟨_, record, rfl, found⟩
  have free : Service.crowdedStore.find? id = none := by decide +kernel
  have valid : Service.smallCapsule.validate = .ok () := by decide +kernel
  obtain ⟨count, _, ran, _, _, settled⟩ := stored_at_first_free Service.smallCapsule .standard
    (some .first) .first thirdFree Service.crowdedStore
  obtain ⟨three, s', stored, records⟩ :=
    (settled valid).1 2 (by decide) taken (List.replicate 16 9) rfl free
  have resolved : ExpiryPolicy.standard.resolve (some .first) .first = ⟨.first, false⟩ := by
    decide +kernel
  rw [resolved] at stored records
  refine ⟨taken, free, s', stored, records, ?_⟩
  rw [ran, three]

end Capsule

end SealedContainer
