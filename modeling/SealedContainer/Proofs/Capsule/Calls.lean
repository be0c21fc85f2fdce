import SealedContainer.Proofs.Capsule.Keeping

/-!
A server at work on any number of calls at a time. A call goes on by steps, each of which is one
access to the store, and the steps of the calls that are open come in any order. Main statements: a
call that nothing comes in between of does what the server's operation does (`alone_store`,
`alone_fetch`, `alone_expire`), and all that one step can do (`step_took`).
-/

namespace SealedContainer

abbrev Draw := Except CryptoError { entropy : Bytes // entropy.length = TransactionId.entropySize }

namespace Draw

def bytes (draw : Draw) : Except CryptoError Bytes := draw.map Subtype.val

end Draw

inductive Request where
  | store (capsule : Capsule) (requested : Option Instant) (now : Instant)
  | fetch (id : String) (caller : PublicKey)
  | expire (now : Instant)

/-- How far a call is: before an access to the store, or at its result. -/
inductive Call where
  | storing (capsule : Capsule) (requested : Option Instant) (now : Instant) (retries : Nat)
  | fetching (id : String) (caller : PublicKey)
  | expiring (now : Instant)
  | stored (result : Except CapsuleError Receipt)
  | fetched (result : Except CapsuleError Capsule)
  | expired (result : Except CapsuleError Nat)
  deriving DecidableEq

/-- What an access does to the store. An insertion carries the number of the call that makes it. -/
inductive Change where
  | inserted (call : Nat) (record : StoredCapsule)
  | swept (now : Instant)
  deriving DecidableEq

def StoredCapsule.receipt (r : StoredCapsule) : Receipt := ⟨r.id, r.expiry, r.adjusted⟩

namespace Change

def apply (records : List StoredCapsule) : Change → List StoredCapsule
  | inserted _ record => records ++ [record]
  | swept now => records.filter fun r => !r.expiredAt now

def replay (changes : List Change) : List StoredCapsule := changes.foldl apply []

end Change

/-- Among some changes there is a sweep at a time past an expiry. -/
def SweptPast (expiry : Instant) (changes : List Change) : Prop :=
  ∃ now, .swept now ∈ changes ∧ expiry < now

theorem SweptPast.append {expiry : Instant} {changes : List Change}
    (swept : SweptPast expiry changes) (more : List Change) :
    SweptPast expiry (changes ++ more) := by
  obtain ⟨now, member, expired⟩ := swept
  exact ⟨now, List.mem_append_left more member, expired⟩

def Request.start : Request → Call
  | store capsule requested now =>
    match capsule.validate with
    | .ok () => .storing capsule requested now Capsule.maxRetries
    | .error e => .stored (.error e)
  | fetch id caller => .fetching id caller
  | expire now => .expiring now

def Capsule.attempt (c : Capsule) (resolved : ResolvedExpiry) (now : Instant) (draw : Draw)
    (s : Store) : Storage × Except CapsuleError StoredCapsule :=
  insertFresh (c.record resolved now) (fun _ => draw.bytes) 0 0 (.ofStore s)

namespace Call

variable (policy : ExpiryPolicy) (draw : Draw) (s : Store)

def step : Call → Store × Call
  | storing capsule requested now retries =>
    let (storage, result) := capsule.attempt (policy.resolve requested now) now draw s
    match result, retries with
    | .error (.duplicate _), retries + 1 =>
      (storage.store, storing capsule requested now retries)
    | result, _ => (storage.store, stored (result.map StoredCapsule.receipt))
  | fetching id caller =>
    let (storage, result) := (Storage.ofStore s).fetch id caller
    (storage.store, fetched result)
  | expiring now =>
    let (storage, result) := (Storage.ofStore s).deleteExpired now
    (storage.store, expired result)
  | ended => (s, ended)

def change (number : Nat) : Call → List Change
  | storing capsule requested now _ =>
    match (capsule.attempt (policy.resolve requested now) now draw s).2 with
    | .ok record => [.inserted number record]
    | .error _ => []
  | expiring now => [.swept now]
  | _ => []

end Call

/-- The calls made so far stand in the order of their beginnings, and the changes likewise. -/
structure Service where
  store : Store
  calls : List Call
  changes : List Change

/-- A call begins, or one that has begun goes on by a step, and draws an id if it needs one. -/
inductive Event where
  | begin (request : Request)
  | advance (call : Nat) (draw : Draw)

namespace Service

def idle : Service := ⟨.empty, [], []⟩

def step (policy : ExpiryPolicy) (s : Service) : Event → Service
  | .begin request => { s with calls := s.calls ++ [request.start] }
  | .advance number draw =>
    match s.calls[number]? with
    | none => s
    | some call =>
      let (store, call') := call.step policy draw s.store
      ⟨store, s.calls.set number call', s.changes ++ call.change policy draw s.store number⟩

def run (policy : ExpiryPolicy) (s : Service) (events : List Event) : Service :=
  events.foldl (step policy) s

theorem run_concat (policy : ExpiryPolicy) (s : Service) (events : List Event) (e : Event) :
    s.run policy (events ++ [e]) = (s.run policy events).step policy e := by
  simp [run]

end Service

namespace Call

variable {policy : ExpiryPolicy} {s : Store} {capsule : Capsule} {requested : Option Instant}
  {now : Instant} {entropy : { entropy : Bytes // entropy.length = TransactionId.entropySize }}

abbrev entry (policy : ExpiryPolicy) (capsule : Capsule) (requested : Option Instant)
    (now : Instant) (entropy : Bytes) : StoredCapsule :=
  capsule.record (policy.resolve requested now) now (TransactionId.ofBytes entropy)

theorem attempt_of_free (free : s.find? (TransactionId.ofBytes entropy) = none) :
    capsule.attempt (policy.resolve requested now) now (.ok entropy) s =
      (.ofStore (s.push (entry policy capsule requested now entropy) free),
        .ok (entry policy capsule requested now entropy)) :=
  Capsule.insertFresh_of_free 0 0 rfl rfl free

theorem attempt_of_taken {taken : StoredCapsule}
    (found : s.find? (TransactionId.ofBytes entropy) = some taken) :
    capsule.attempt (policy.resolve requested now) now (.ok entropy) s =
      (.ofStore s, .error (.duplicate (TransactionId.ofBytes entropy))) :=
  Capsule.insertFresh_of_taken 0 0 rfl rfl found

theorem step_of_no_draw (e : CryptoError) (retries : Nat) :
    (storing capsule requested now retries).step policy (.error e) s =
      (s, stored (.error (.crypto e))) := rfl

theorem step_of_free (free : s.find? (TransactionId.ofBytes entropy) = none) (retries : Nat) :
    (storing capsule requested now retries).step policy (.ok entropy) s =
      (s.push (entry policy capsule requested now entropy) free,
        stored (.ok (entry policy capsule requested now entropy).receipt)) := by
  simp only [step, attempt_of_free free]
  rfl

theorem step_of_taken {taken : StoredCapsule}
    (found : s.find? (TransactionId.ofBytes entropy) = some taken) (retries : Nat) :
    (storing capsule requested now retries).step policy (.ok entropy) s =
      match retries with
      | 0 => (s, stored (.error (.duplicate (TransactionId.ofBytes entropy))))
      | retries + 1 => (s, storing capsule requested now retries) := by
  simp only [step, attempt_of_taken found]
  cases retries <;> rfl

/-- Some steps of a call with nothing in between, the draws from the n-th on. -/
def alone (policy : ExpiryPolicy) (draws : Nat → Draw) : Nat → Nat → Store × Call → Store × Call
  | 0, _, state => state
  | steps + 1, n, (s, call) => alone policy draws steps (n + 1) (call.step policy (draws n) s)

theorem alone_stored (draws : Nat → Draw) (result : Except CapsuleError Receipt) (steps n : Nat) :
    alone policy draws steps n (s, stored result) = (s, stored result) := by
  induction steps generalizing n with
  | zero => rfl
  | succ steps ih => exact ih (n + 1)

theorem alone_storing (draws : Nat → Draw) (retries n : Nat) :
    alone policy draws (retries + 1) n (s, storing capsule requested now retries) =
      let (storage, result) := Capsule.insertFresh
        (capsule.record (policy.resolve requested now) now) (fun i => (draws i).bytes)
        retries n (.ofStore s)
      (storage.store, stored (result.map StoredCapsule.receipt)) := by
  -- By recursion on the tries that are left, each of which is one step.
  rw [alone]
  cases drawn : draws n with
  | error e =>
      have none : (draws n).bytes = .error e := by rw [drawn]; rfl
      rw [step_of_no_draw, alone_stored, Capsule.insertFresh_of_error retries n none]
      rfl
  | ok entropy =>
      have bytes : (draws n).bytes = .ok entropy.1 := by rw [drawn]; rfl
      cases found : s.find? (TransactionId.ofBytes entropy) with
      | none =>
          rw [step_of_free found, alone_stored,
            Capsule.insertFresh_of_free retries n bytes rfl found]
          rfl
      | some taken =>
          rw [step_of_taken found, Capsule.insertFresh_of_taken retries n bytes rfl found]
          cases retries with
          | zero => rfl
          | succ retries => exact alone_storing draws retries (n + 1)
termination_by retries

end Call

section Alone

variable (policy : ExpiryPolicy) (draws : Nat → Draw) (s : Store)

theorem alone_store (capsule : Capsule) (requested : Option Instant) (now : Instant) :
    Call.alone policy draws (Capsule.maxRetries + 1) 0
        (s, (Request.store capsule requested now).start) =
      let (storage, result) := capsule.store policy requested now (fun i => (draws i).bytes)
        (.ofStore s)
      (storage.store, .stored result) := by
  cases checked : capsule.validate with
  | error e =>
      simp only [Request.start, Capsule.store, checked]
      exact Call.alone_stored draws _ _ _
  | ok =>
      simp only [Request.start, Capsule.store, checked]
      exact Call.alone_storing draws Capsule.maxRetries 0

theorem alone_fetch (id : String) (caller : PublicKey) :
    Call.alone policy draws 1 0 (s, (Request.fetch id caller).start) =
      let (storage, result) := (Storage.ofStore s).fetch id caller
      (storage.store, .fetched result) := rfl

theorem alone_expire (now : Instant) :
    Call.alone policy draws 1 0 (s, (Request.expire now).start) =
      let (storage, result) := (Storage.ofStore s).deleteExpired now
      (storage.store, .expired result) := rfl

end Alone

namespace Storage

theorem store_fetch (s : Store) (id : String) (caller : PublicKey) :
    ((ofStore s).fetch id caller).1 = ofStore s := by
  unfold fetch
  split <;> rfl

end Storage

namespace Call

structure Quiet (call call' : Call) : Prop where
  storing : ∀ {capsule requested now retries}, call' = .storing capsule requested now retries →
    ∃ retries', call = .storing capsule requested now retries'
  stored : ∀ {receipt}, call' = .stored (.ok receipt) → call = call'
  expiring : ∀ {now}, call ≠ .expiring now

theorem Quiet.retried (capsule : Capsule) (requested : Option Instant) (now : Instant)
    (retries retries' : Nat) : Quiet (.storing capsule requested now retries)
      (.storing capsule requested now retries') where
  storing := by
    intro _ _ _ _ same
    cases same
    exact ⟨retries, rfl⟩
  stored := by intro _ same; cases same
  expiring := by intro _ same; cases same

theorem Quiet.failed (capsule : Capsule) (requested : Option Instant) (now : Instant)
    (retries : Nat) (e : CapsuleError) :
    Quiet (.storing capsule requested now retries) (.stored (.error e)) where
  storing := by intro _ _ _ _ same; cases same
  stored := by intro _ same; cases same
  expiring := by intro _ same; cases same

theorem Quiet.answered (id : String) (caller : PublicKey) (result : Except CapsuleError Capsule) :
    Quiet (.fetching id caller) (.fetched result) where
  storing := by intro _ _ _ _ same; cases same
  stored := by intro _ same; cases same
  expiring := by intro _ same; cases same

theorem Quiet.refl {call : Call} (resting : ∀ now, call ≠ .expiring now) : call.Quiet call where
  storing := fun same => ⟨_, same⟩
  stored := fun _ => rfl
  expiring := resting _

end Call

namespace Service

/-- All that one event can do to a server. -/
inductive Took (policy : ExpiryPolicy) (s : Service) : Event → Service → Prop
  | began (request : Request) :
    Took policy s (.begin request) { s with calls := s.calls ++ [request.start] }
  | missed {number : Nat} {draw : Draw} (missing : s.calls[number]? = none) :
    Took policy s (.advance number draw) s
  | moved {number : Nat} {draw : Draw} {call call' : Call}
    (waiting : s.calls[number]? = some call) (quiet : call.Quiet call') :
    Took policy s (.advance number draw) { s with calls := s.calls.set number call' }
  | inserted {number : Nat} {capsule : Capsule} {requested : Option Instant} {now : Instant}
    {retries : Nat} {entropy : { entropy : Bytes // entropy.length = TransactionId.entropySize }}
    (waiting : s.calls[number]? = some (.storing capsule requested now retries))
    (free : s.store.find? (TransactionId.ofBytes entropy) = none) :
    Took policy s (.advance number (.ok entropy))
      ⟨s.store.push (Call.entry policy capsule requested now entropy) free,
        s.calls.set number (.stored (.ok (Call.entry policy capsule requested now entropy).receipt)),
        s.changes ++ [.inserted number (Call.entry policy capsule requested now entropy)]⟩
  | swept {number : Nat} {draw : Draw} {now : Instant} {removed : Nat}
    (waiting : s.calls[number]? = some (.expiring now)) :
    Took policy s (.advance number draw)
      ⟨s.store.sweep now, s.calls.set number (.expired (.ok removed)), s.changes ++ [.swept now]⟩

variable {policy : ExpiryPolicy} {s : Service} {number : Nat} {draw : Draw} {call call' : Call}

theorem took_of_quiet (waiting : s.calls[number]? = some call)
    (stays : call.step policy draw s.store = (s.store, call'))
    (silent : call.change policy draw s.store number = []) (quiet : call.Quiet call') :
    Took policy s (.advance number draw) (s.step policy (.advance number draw)) := by
  simp only [step, waiting, stays, silent, List.append_nil]
  exact .moved waiting quiet

theorem step_took (policy : ExpiryPolicy) (s : Service) (e : Event) :
    Took policy s e (s.step policy e) := by
  cases e with
  | begin request => exact .began request
  | advance number draw =>
      cases found : s.calls[number]? with
      | none =>
          simp only [step, found]
          exact .missed found
      | some call =>
          cases call with
          | storing capsule requested now retries =>
              cases draw with
              | error e =>
                  exact took_of_quiet found (Call.step_of_no_draw e retries) rfl
                    (.failed capsule requested now retries _)
              | ok entropy =>
                  cases taken : s.store.find? (TransactionId.ofBytes entropy) with
                  | none =>
                      simp only [step, found, Call.step_of_free taken, Call.change,
                        Call.attempt_of_free taken]
                      exact .inserted found taken
                  | some record =>
                      have silent : (Call.storing capsule requested now retries).change policy
                          (.ok entropy) s.store number = [] := by
                        simp only [Call.change, Call.attempt_of_taken taken]
                      cases retries with
                      | zero =>
                          exact took_of_quiet found (Call.step_of_taken taken 0) silent
                            (.failed capsule requested now 0 _)
                      | succ retries =>
                          exact took_of_quiet found (Call.step_of_taken taken (retries + 1)) silent
                            (.retried capsule requested now (retries + 1) retries)
          | fetching id caller =>
              have stays : (Call.fetching id caller).step policy draw s.store =
                  (s.store, .fetched ((Storage.ofStore s.store).fetch id caller).2) := by
                simp only [Call.step, Storage.store_fetch]
                rfl
              exact took_of_quiet found stays rfl (.answered id caller _)
          | expiring now =>
              simp only [step, found]
              exact .swept found
          | stored | fetched | expired =>
              refine took_of_quiet found rfl rfl (.refl ?_)
              intro now same
              cases same

end Service

end SealedContainer
