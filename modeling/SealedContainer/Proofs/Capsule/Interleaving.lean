import SealedContainer.Proofs.Capsule.Calls
import Mathlib.Data.List.Induction

/-!
What holds of the store at every point of every run, however the steps of the calls are mixed. Main
statement: `records_kept`. The ids in the store are keys of the form that the server gives out, and
each record is made of a capsule that passed the checks. A record stays as it is until a sweep after
its expiry takes it out, and until then its id is given to nobody else.
-/

namespace SealedContainer

section Cuts

variable {α : Type} {l front back : List α} {x y : α}

theorem concat_eq_append_cons (cut : l ++ [x] = front ++ y :: back) :
    (l = front ∧ x = y) ∨ ∃ back', back = back' ++ [x] ∧ l = front ++ y :: back' := by
  rcases List.eq_nil_or_concat back with rfl | ⟨back', z, rfl⟩
  · have same := List.append_inj' cut rfl
    exact .inl ⟨same.1, by simpa using same.2⟩
  · rw [List.concat_eq_append, ← List.cons_append, ← List.append_assoc] at cut
    have same := List.append_inj' cut rfl
    have last : x = z := by simpa using same.2
    exact .inr ⟨back', by rw [List.concat_eq_append, last], same.1⟩

theorem cut_of_mem_of_ne (first : x ∈ l) (second : y ∈ l) (different : x ≠ y) :
    (∃ front between back, l = front ++ x :: (between ++ y :: back)) ∨
      ∃ front between back, l = front ++ y :: (between ++ x :: back) := by
  obtain ⟨front, rest, rfl⟩ := List.append_of_mem first
  rcases List.mem_append.mp second with before | after
  · obtain ⟨front, between, rfl⟩ := List.append_of_mem before
    exact .inr ⟨front, between, rest, by simp⟩
  · rcases List.mem_cons.mp after with same | after
    · exact absurd same.symm different
    · obtain ⟨between, back, rfl⟩ := List.append_of_mem after
      exact .inl ⟨front, between, back, rfl⟩

theorem eq_or_getElem?_of_set {n i : Nat} (found : (l.set n x)[i]? = some y) :
    i = n ∧ y = x ∨ l[i]? = some y := by
  rw [List.getElem?_set] at found
  split at found
  next same =>
    split at found
    next => exact .inl ⟨same.symm, (Option.some.inj found).symm⟩
    next => cases found
  next => exact .inr found

theorem eq_or_getElem?_of_concat {i : Nat} (found : (l ++ [x])[i]? = some y) :
    y = x ∨ l[i]? = some y := by
  rcases Nat.lt_or_ge i l.length with inside | beyond
  · rw [List.getElem?_append_left inside] at found
    exact .inr found
  · rw [List.getElem?_append_right beyond] at found
    exact .inl (by simpa using List.mem_of_getElem? found)

end Cuts

/-- Two calls inserted under one id, and the record of the first was swept in between. -/
def Reused (changes : List Change) (first second : Nat) (id : String) : Prop :=
  ∃ front between back r₁ r₂,
    changes = front ++ .inserted first r₁ :: (between ++ .inserted second r₂ :: back) ∧
      r₁.id = id ∧ r₂.id = id ∧ SweptPast r₁.expiry between

namespace Store

/-- What a store is after changes, whoever made them. -/
structure Sound (policy : ExpiryPolicy) (changes : List Change) (s : Store) : Prop where
  replayed : s.records = Change.replay changes
  issued : ∀ r ∈ s.records, TransactionId.Issued r.id
  admitted : ∀ r ∈ s.records, r.Admitted policy
  /-- What was inserted is there still, or was swept. -/
  kept : ∀ {front number r back}, changes = front ++ .inserted number r :: back →
    s.find? r.id = some r ∨ SweptPast r.expiry back
  /-- An id that was taken is free again only by a sweep. -/
  fresh : ∀ {front first r₁ between second r₂ back},
    changes = front ++ .inserted first r₁ :: (between ++ .inserted second r₂ :: back) →
      r₁.id = r₂.id → SweptPast r₁.expiry between

variable {policy : ExpiryPolicy} {changes : List Change} {s : Store} {r : StoredCapsule}

theorem sound_empty (policy : ExpiryPolicy) : empty.Sound policy [] where
  replayed := rfl
  issued := by simp [empty]
  admitted := by simp [empty]
  kept := by simp
  fresh := by simp

theorem Sound.push (sound : s.Sound policy changes) (number : Nat) (free : s.find? r.id = none)
    (issued : TransactionId.Issued r.id) (admitted : r.Admitted policy) :
    (s.push r free).Sound policy (changes ++ [.inserted number r]) where
  replayed := by rw [Change.replay, List.foldl_concat, ← Change.replay, ← sound.replayed]; rfl
  issued := by
    intro other member
    rcases List.mem_append.mp member with old | new
    · exact sound.issued other old
    · rwa [List.mem_singleton.mp new]
  admitted := by
    intro other member
    rcases List.mem_append.mp member with old | new
    · exact sound.admitted other old
    · rwa [List.mem_singleton.mp new]
  kept := by
    intro front earlier r' back cut
    rcases concat_eq_append_cons cut with ⟨_, same⟩ | ⟨back', rfl, before⟩
    · cases same
      exact .inl (find?_push_self free)
    · rcases sound.kept before with found | swept
      · exact .inl (find?_push_of_some free found)
      · exact .inr (swept.append _)
  fresh := by
    intro front first r₁ between second r₂ back cut same
    rw [← List.cons_append, ← List.append_assoc] at cut
    rcases concat_eq_append_cons cut with ⟨before, last⟩ | ⟨back', _, before⟩
    · cases last
      -- The insertion found the id free, so the earlier record was not there any more.
      rcases sound.kept before with found | swept
      · rw [same, free] at found
        cases found
      · exact swept
    · rw [List.append_assoc, List.cons_append] at before
      exact sound.fresh before same

theorem Sound.sweep (sound : s.Sound policy changes) (now : Instant) :
    (s.sweep now).Sound policy (changes ++ [.swept now]) where
  replayed := by rw [Change.replay, List.foldl_concat, ← Change.replay, ← sound.replayed]; rfl
  issued := fun r member => sound.issued r (List.mem_filter.mp member).1
  admitted := fun r member => sound.admitted r (List.mem_filter.mp member).1
  kept := by
    intro front number r back cut
    rcases concat_eq_append_cons cut with ⟨_, same⟩ | ⟨back', rfl, before⟩
    · cases same
    · rcases sound.kept before with found | swept
      · by_cases expired : r.expiry < now
        · exact .inr ⟨now, by simp, expired⟩
        · exact .inl (find?_sweep_of_not_expired found expired)
      · exact .inr (swept.append _)
  fresh := by
    intro front first r₁ between second r₂ back cut same
    rw [← List.cons_append, ← List.append_assoc] at cut
    rcases concat_eq_append_cons cut with ⟨_, last⟩ | ⟨back', _, before⟩
    · cases last
    · rw [List.append_assoc, List.cons_append] at before
      exact sound.fresh before same

end Store

namespace Request

theorem valid_of_start {request : Request} {capsule : Capsule} {requested : Option Instant}
    {now : Instant} {retries : Nat}
    (started : request.start = .storing capsule requested now retries) :
    capsule.validate = .ok () := by
  cases request with
  | store c _ _ =>
      simp only [start] at started
      split at started
      next valid => cases started; exact valid
      next => cases started
  | fetch => cases started
  | expire => cases started

theorem start_ne_stored (request : Request) (receipt : Receipt) :
    request.start ≠ .stored (.ok receipt) := by
  intro started
  cases request with
  | store c _ _ =>
      simp only [start] at started
      split at started <;> cases started
  | fetch => cases started
  | expire => cases started

end Request

namespace Service

def Sweeps (s : Service) (e : Event) (now : Instant) : Prop :=
  ∃ number draw, e = .advance number draw ∧ s.calls[number]? = some (.expiring now)

/-- What no step of any call breaks. -/
structure Sound (policy : ExpiryPolicy) (s : Service) : Prop where
  store : s.store.Sound policy s.changes
  /-- Only capsules that passed the checks are about to be stored. -/
  checked : ∀ {number : Nat} {capsule requested now retries},
    s.calls[number]? = some (Call.storing capsule requested now retries) →
      capsule.validate = .ok ()
  /-- A call that returns a receipt did insert what it tells. -/
  reported : ∀ {number : Nat} {receipt}, s.calls[number]? = some (Call.stored (.ok receipt)) →
    ∃ r, .inserted number r ∈ s.changes ∧ r.receipt = receipt

variable {policy : ExpiryPolicy} {s s' : Service} {e : Event}

theorem sound_idle (policy : ExpiryPolicy) : idle.Sound policy where
  store := Store.sound_empty policy
  checked := nofun
  reported := nofun

theorem Sound.of_took (sound : s.Sound policy) (took : Took policy s e s') : s'.Sound policy := by
  -- One case for each thing that an event can do.
  cases took with
  | began request =>
      refine ⟨sound.store, ?_, ?_⟩
      · intro number capsule requested now retries found
        rcases eq_or_getElem?_of_concat found with started | old
        · exact Request.valid_of_start started.symm
        · exact sound.checked old
      · intro number receipt found
        rcases eq_or_getElem?_of_concat found with started | old
        · exact absurd started.symm (Request.start_ne_stored request receipt)
        · exact sound.reported old
  | missed => exact sound
  | moved waiting quiet =>
      refine ⟨sound.store, ?_, ?_⟩
      · intro number capsule requested now retries found
        rcases eq_or_getElem?_of_set found with ⟨_, same⟩ | old
        · obtain ⟨retries', before⟩ := quiet.storing same.symm
          exact sound.checked (before ▸ waiting)
        · exact sound.checked old
      · intro number receipt found
        rcases eq_or_getElem?_of_set found with ⟨rfl, same⟩ | old
        · have before := quiet.stored same.symm
          exact sound.reported (before.trans same.symm ▸ waiting)
        · exact sound.reported old
  | @inserted number capsule requested now retries entropy waiting free =>
      have valid := sound.checked waiting
      refine ⟨sound.store.push number free (TransactionId.issued_ofBytes entropy.2)
        (StoredCapsule.admitted_record policy requested now _ valid), ?_, ?_⟩
      · intro number capsule requested now retries found
        rcases eq_or_getElem?_of_set found with ⟨_, same⟩ | old
        · cases same
        · exact sound.checked old
      · intro number receipt found
        rcases eq_or_getElem?_of_set found with ⟨rfl, same⟩ | old
        · cases same
          exact ⟨_, by simp, rfl⟩
        · obtain ⟨r, member, same⟩ := sound.reported old
          exact ⟨r, List.mem_append_left _ member, same⟩
  | @swept number draw now removed waiting =>
      refine ⟨sound.store.sweep now, ?_, ?_⟩
      · intro number capsule requested now retries found
        rcases eq_or_getElem?_of_set found with ⟨_, same⟩ | old
        · cases same
        · exact sound.checked old
      · intro number receipt found
        rcases eq_or_getElem?_of_set found with ⟨_, same⟩ | old
        · cases same
        · obtain ⟨r, member, same⟩ := sound.reported old
          exact ⟨r, List.mem_append_left _ member, same⟩

theorem Sound.run (sound : s.Sound policy) (events : List Event) :
    (s.run policy events).Sound policy := by
  -- By induction on the events, the last one first.
  induction events using List.reverseRecOn with
  | nil => exact sound
  | append_singleton events e ih =>
      rw [run_concat]
      exact ih.of_took (step_took policy _ e)

theorem find?_of_took (took : Took policy s e s') {id : String}
    {r : StoredCapsule} (found : s.store.find? id = some r) :
    ((∃ now, s.Sweeps e now ∧ r.expiry < now) → s'.store.find? id = none) ∧
      ((¬ ∃ now, s.Sweeps e now ∧ r.expiry < now) → s'.store.find? id = some r) := by
  cases took with
  | began request =>
      refine ⟨?_, fun _ => found⟩
      rintro ⟨now, ⟨number, draw, same, _⟩, _⟩
      cases same
  | missed missing =>
      refine ⟨?_, fun _ => found⟩
      rintro ⟨now, ⟨number, draw, same, sweeping⟩, _⟩
      cases same
      simp [missing] at sweeping
  | moved waiting quiet =>
      refine ⟨?_, fun _ => found⟩
      rintro ⟨now, ⟨number, draw, same, sweeping⟩, _⟩
      cases same
      rw [waiting] at sweeping
      exact absurd (Option.some.inj sweeping) quiet.expiring
  | inserted waiting free =>
      refine ⟨?_, fun _ => Store.find?_push_of_some free found⟩
      rintro ⟨now, ⟨number, draw, same, sweeping⟩, _⟩
      cases same
      rw [waiting] at sweeping
      cases sweeping
  | @swept number draw now removed waiting =>
      constructor
      · rintro ⟨later, ⟨number, draw, same, sweeping⟩, expired⟩
        cases same
        rw [waiting] at sweeping
        cases sweeping
        exact Store.find?_sweep_of_expired found expired
      · intro otherwise
        refine Store.find?_sweep_of_not_expired found ?_
        intro expired
        exact otherwise ⟨now, ⟨number, draw, rfl, waiting⟩, expired⟩

/-- Of two calls that were given one id, one came after a sweep of what the other had stored. -/
theorem Sound.reused (sound : s.Sound policy) {i j : Nat} {a b : Receipt} (different : i ≠ j)
    (first : s.calls[i]? = some (.stored (.ok a))) (second : s.calls[j]? = some (.stored (.ok b)))
    (same : a.id = b.id) : Reused s.changes i j a.id ∨ Reused s.changes j i a.id := by
  obtain ⟨r₁, member₁, rfl⟩ := sound.reported first
  obtain ⟨r₂, member₂, rfl⟩ := sound.reported second
  have apart : Change.inserted i r₁ ≠ .inserted j r₂ := by
    intro equal
    cases equal
    exact different rfl
  rcases cut_of_mem_of_ne member₁ member₂ apart with
    ⟨front, between, back, cut⟩ | ⟨front, between, back, cut⟩
  · exact .inl ⟨front, between, back, r₁, r₂, cut, rfl, same.symm, sound.store.fresh cut same⟩
  · exact .inr ⟨front, between, back, r₂, r₁, cut, same.symm, rfl, sound.store.fresh cut same.symm⟩

/--
At every point of every run of calls to store, to fetch and to sweep, at any instants, with any
draws of ids: the store maps ids to records; every record has an id of the form that is given out,
was made of a capsule that passed the checks, and expires within the bound of the policy, which it
meets if the expiry was adjusted; whatever comes next, a record stays as it is, unless that is a
sweep later than its expiry, which takes it out; and calls that returned receipts returned different
ids, unless the record of the first was swept before the second inserted its own.
-/
theorem records_kept (policy : ExpiryPolicy) (events : List Event) :
    let s := idle.run policy events
    s.store.records.Pairwise (·.id ≠ ·.id) ∧ s.store.records = Change.replay s.changes ∧
    (∀ r ∈ s.store.records,
      TransactionId.Issued r.id ∧ TransactionId.isWellFormed r.id = true ∧ r.Admitted policy ∧
      r.expiry ≤ r.created.addBounded policy.max ∧
      (r.adjusted = true → r.expiry = r.created.addBounded policy.max)) ∧
    (∀ e id r, s.store.find? id = some r → r.id = id ∧
      ((∃ now, s.Sweeps e now ∧ r.expiry < now) → (s.step policy e).store.find? id = none) ∧
      ((¬ ∃ now, s.Sweeps e now ∧ r.expiry < now) →
        (s.step policy e).store.find? id = some r)) ∧
    (∀ i j a b, i ≠ j → s.calls[i]? = some (.stored (.ok a)) →
      s.calls[j]? = some (.stored (.ok b)) → a.id = b.id →
      Reused s.changes i j a.id ∨ Reused s.changes j i a.id) := by
  intro s
  have sound : s.Sound policy := (sound_idle policy).run events
  refine ⟨s.store.distinct, sound.store.replayed, ?_, ?_, ?_⟩
  · intro r member
    have issued := sound.store.issued r member
    have admitted := sound.store.admitted r member
    exact ⟨issued, issued.isWellFormed, admitted, admitted.expiry_le, admitted.eq_of_adjusted⟩
  · intro e id r found
    exact ⟨Store.id_of_find? found, find?_of_took (step_took policy s e) found⟩
  · intro i j a b different first second same
    exact sound.reused different first second same

def smallCapsule : Capsule := ⟨.rsa, some [0x30, 6, 2, 1, 5, 2, 1, 3], some []⟩

def repeatedDraw (b : UInt8) : Draw := .ok ⟨List.replicate 16 b, rfl⟩

def shortLived : Request := .store smallCapsule (some .first) .first

/-- Two calls draw one id, and the second has to try again. A third one is given the first id
again. -/
def crowdedEvents : List Event :=
  [.begin shortLived, .begin shortLived, .advance 0 (repeatedDraw 7), .advance 1 (repeatedDraw 7),
    .advance 1 (repeatedDraw 8), .begin (.expire .last), .advance 2 (repeatedDraw 0),
    .begin shortLived, .advance 3 (repeatedDraw 7)]

def crowdedReceipt : Receipt :=
  ⟨TransactionId.ofBytes (List.replicate 16 7), .first, false⟩

/-- The record is there until the sweep, and its id is given out again after it. -/
theorem crowdedReceipt_reused :
    ((idle.run .standard crowdedEvents).calls[0]? = some (.stored (.ok crowdedReceipt)) ∧
      (idle.run .standard crowdedEvents).calls[3]? = some (.stored (.ok crowdedReceipt)) ∧
      (Reused (idle.run .standard crowdedEvents).changes 0 3 crowdedReceipt.id ∨
        Reused (idle.run .standard crowdedEvents).changes 3 0 crowdedReceipt.id)) ∧
    ∃ r, (idle.run .standard (crowdedEvents.take 6)).store.find? crowdedReceipt.id = some r ∧
      r.expiry < Instant.last ∧
      ((idle.run .standard (crowdedEvents.take 6)).step .standard
        (.advance 2 (repeatedDraw 0))).store.find? crowdedReceipt.id = none := by
  constructor
  · have first : (idle.run .standard crowdedEvents).calls[0]? =
        some (.stored (.ok crowdedReceipt)) := by
      decide +kernel
    have third : (idle.run .standard crowdedEvents).calls[3]? =
        some (.stored (.ok crowdedReceipt)) := by
      decide +kernel
    have reused := (records_kept .standard crowdedEvents).2.2.2.2 0 3 crowdedReceipt crowdedReceipt
      (by decide) first third rfl
    exact ⟨first, third, reused⟩
  · have found : (idle.run .standard (crowdedEvents.take 6)).store.find? crowdedReceipt.id =
        some (smallCapsule.record ⟨.first, false⟩ .first crowdedReceipt.id) := by
      decide +kernel
    have expired : Instant.first < Instant.last := by decide
    have sweeps : (idle.run .standard (crowdedEvents.take 6)).Sweeps
        (.advance 2 (repeatedDraw 0)) .last :=
      ⟨2, repeatedDraw 0, rfl, rfl⟩
    have next := (records_kept .standard (crowdedEvents.take 6)).2.2.2.1
      (.advance 2 (repeatedDraw 0)) _ _ found
    exact ⟨_, found, expired, next.2.1 ⟨.last, sweeps, expired⟩⟩

end Service

end SealedContainer
