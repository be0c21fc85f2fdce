import SealedContainer.Proofs.Capsule.Release
import SealedContainer.Proofs.Server.Requests

/-!
What a client learns from a server of the capsules of others. Main statement:
`others_capsules_hidden`. A fetch looks at the store through the records that are addressed to the
client (`Store.view`), and these alone decide the answer and the counters.
-/

namespace SealedContainer

namespace StoredCapsule

/-- The recipient of the record, read as a key of the kind that it names, is the key of the caller. -/
def AddressedTo (r : StoredCapsule) : PublicKey → Prop
  | .ec key => r.kind = .ec key.curve ∧ EcPublicKey.decode key.curve r.recipient = .ok key
  | .rsa key => r.kind = .rsa ∧ RsaPublicKey.decode r.recipient = .ok key

/-- The comparison of encodings finds the records whose recipient decodes to the key. -/
theorem isFor_iff_addressedTo {r : StoredCapsule} {caller : PublicKey} :
    r.isFor caller = true ↔ r.AddressedTo caller := by
  cases caller with
  | ec key =>
      simp only [isFor, AddressedTo, Bool.and_eq_true, beq_iff_eq]
      apply and_congr_right'
      constructor
      · intro encoded
        rw [encoded]
        exact key.decode_encode
      · intro read
        exact (EcPublicKey.eq_encode_of_decode read).2
  | rsa key =>
      simp only [isFor, AddressedTo, Bool.and_eq_true, beq_iff_eq]
      exact and_congr_right' RsaPublicKey.decode_eq_ok_iff.symm

end StoredCapsule

namespace Store

/-- What a caller can see under an id. -/
def view (s : Store) (caller : PublicKey) (id : String) : Option StoredCapsule :=
  if TransactionId.isWellFormed id then (s.find? id).filter (·.isFor caller) else none

variable {s s₁ s₂ : Store} {caller : PublicKey} {id : String} {r : StoredCapsule}

theorem view_eq_some_iff :
    s.view caller id = some r ↔
      TransactionId.isWellFormed id = true ∧ r ∈ s.records ∧ r.id = id ∧ r.AddressedTo caller := by
  simp only [view, Option.ite_none_right_eq_some, Option.filter_eq_some_iff,
    StoredCapsule.isFor_iff_addressedTo]
  constructor
  · intro seen
    obtain ⟨issued, found, own⟩ := seen
    exact ⟨issued, mem_of_find? found, id_of_find? found, own⟩
  · intro held
    obtain ⟨issued, member, rfl, own⟩ := held
    exact ⟨issued, find?_of_mem member, own⟩

theorem view_congr (same : ∀ r, r.AddressedTo caller → (r ∈ s₁.records ↔ r ∈ s₂.records))
    (id : String) : s₁.view caller id = s₂.view caller id := by
  apply Option.ext
  intro r
  rw [view_eq_some_iff, view_eq_some_iff]
  apply and_congr_right'
  constructor
  · intro held
    exact ⟨(same r held.2.2).mp held.1, held.2⟩
  · intro held
    exact ⟨(same r held.2.2).mpr held.1, held.2⟩

theorem view_eq_none (hidden : TransactionId.isWellFormed id = false ∨ s.find? id = none ∨
    ∃ r, s.find? id = some r ∧ ¬ r.AddressedTo caller) : s.view caller id = none := by
  apply Option.eq_none_iff_forall_ne_some.mpr
  intro r seen
  obtain ⟨issued, member, rfl, own⟩ := view_eq_some_iff.mp seen
  have found := find?_of_mem member
  rcases hidden with malformed | absent | ⟨other, foreign, others⟩
  · simp [issued] at malformed
  · simp [found] at absent
  · rw [found] at foreign
    cases foreign
    exact others own

end Store

/-- A fetch looks at nothing but the view of the caller. -/
theorem Storage.fetch_eq_view (s : Store) (id : String) (caller : PublicKey) :
    (ofStore s).fetch id caller =
      (ofStore s,
        match s.view caller id with
        | some r => .ok r.toCapsule
        | none => .error .notFound) := by
  unfold fetch Store.view
  split
  next =>
    cases found : s.find? id with
    | none =>
        simp only [find, call, ofStore, found]
        rfl
    | some r =>
        simp only [find, call, ofStore, found, Outcome.ok_bind, Option.filter_some]
        split <;> rfl
  next => rfl

namespace Metrics

def plus (m more : Metrics) : Metrics where
  created := m.created + more.created
  fetched := m.fetched + more.fetched
  notFound := m.notFound + more.notFound
  expired := m.expired + more.expired

end Metrics

namespace CapsuleServer

/-- Two results of one request that tell nobody which of two servers has given them. -/
structure Alike {α : Type} (m₁ m₂ : Metrics) (a b : ServerState × α) : Prop where
  answer : a.2 = b.2
  counters : ∃ more, a.1.metrics = m₁.plus more ∧ b.1.metrics = m₂.plus more

theorem Alike.of_unchanged {α : Type} (s₁ s₂ : Store) (m₁ m₂ : Metrics) (result : α) :
    Alike m₁ m₂ (⟨.ofStore s₁, m₁⟩, result) (⟨.ofStore s₂, m₂⟩, result) :=
  ⟨rfl, .zero, rfl, rfl⟩

variable (server : CapsuleServer) (request : Http.Request) (now : Instant) (draws : Draws)
  {caller : PublicKey} {s₁ s₂ : Store} (m₁ m₂ : Metrics)

theorem release_eq_view (known : server.identity.identify request = some caller)
    {segment : List Char} {id : String}
    (text : Bytes.toString? (Http.Target.unescaped segment) = some id) (s : Store) (m : Metrics) :
    server.release request segment ⟨.ofStore s, m⟩ =
      match s.view caller id with
      | some r =>
        (⟨.ofStore s, { m with fetched := m.fetched + 1 }⟩, .ok (.ofJson 200 r.toCapsule.print.toList))
      | none => (⟨.ofStore s, { m with notFound := m.notFound + 1 }⟩, .error .notFound) := by
  simp only [release, known, text, Storage.fetch_eq_view]
  cases s.view caller id <;> rfl

theorem release_alike (known : server.identity.identify request = some caller)
    (same : ∀ r, r.AddressedTo caller → (r ∈ s₁.records ↔ r ∈ s₂.records)) (segment : List Char) :
    Alike m₁ m₂ (server.release request segment ⟨.ofStore s₁, m₁⟩)
      (server.release request segment ⟨.ofStore s₂, m₂⟩) := by
  cases text : Bytes.toString? (Http.Target.unescaped segment) with
  | none =>
      simp only [release, known, text]
      exact .of_unchanged s₁ s₂ m₁ m₂ _
  | some id =>
      simp only [server.release_eq_view request known text, Store.view_congr same id]
      cases s₂.view caller id with
      | some r => exact ⟨rfl, ⟨0, 1, 0, 0⟩, rfl, rfl⟩
      | none => exact ⟨rfl, ⟨0, 0, 1, 0⟩, rfl, rfl⟩

theorem answer_alike (get : server.mode = .get)
    (known : server.identity.identify request = some caller)
    (same : ∀ r, r.AddressedTo caller → (r ∈ s₁.records ↔ r ∈ s₂.records)) :
    Alike m₁ m₂ (server.answer request now draws ⟨.ofStore s₁, m₁⟩)
      (server.answer request now draws ⟨.ofStore s₂, m₂⟩) := by
  unfold answer
  cases (Http.Target.path? request.target).bind resource? with
  | none => exact .of_unchanged s₁ s₂ m₁ m₂ _
  | some resource =>
      simp only [get]
      cases resource with
      | capsules => exact .of_unchanged s₁ s₂ m₁ m₂ _
      | capsule segment =>
          simp only
          split
          next => exact server.release_alike request m₁ m₂ known same segment
          next => exact .of_unchanged s₁ s₂ m₁ m₂ _

end CapsuleServer

open CapsuleServer

/--
A client whose key is known sends any request to a server that gives capsules out. Of two stores
with the same records addressed to that key, whatever else they hold, it gets one answer, with the
same status, headers and body, and the counters go up by the same numbers. In particular an id that
is malformed, one that is not there and one of a record for somebody else are all not found.
-/
theorem others_capsules_hidden (policy : ExpiryPolicy) (identity : IdentitySource)
    (request : Http.Request) (now : Instant) (draws : Draws) (caller : PublicKey) (s₁ s₂ : Store)
    (m₁ m₂ : Metrics) (known : identity.identify request = some caller)
    (same : ∀ r, r.AddressedTo caller → (r ∈ s₁.records ↔ r ∈ s₂.records)) :
    let server : CapsuleServer := ⟨.get, policy, identity⟩
    Alike m₁ m₂ (server.respond request now draws ⟨.ofStore s₁, m₁⟩)
        (server.respond request now draws ⟨.ofStore s₂, m₂⟩) ∧
      ∀ segment id, request.method = "GET" →
        (Http.Target.path? request.target).bind resource? = some (.capsule segment) →
        Bytes.toString? (Http.Target.unescaped segment) = some id →
        (TransactionId.isWellFormed id = false ∨ s₁.find? id = none ∨
          ∃ r, s₁.find? id = some r ∧ ¬ r.AddressedTo caller) →
        server.respond request now draws ⟨.ofStore s₁, m₁⟩ =
          (⟨.ofStore s₁, { m₁ with notFound := m₁.notFound + 1 }⟩, ApiError.notFound.response) := by
  intro server
  constructor
  · have alike := server.answer_alike request now draws m₁ m₂ rfl known same
    exact ⟨congrArg (shown request) alike.answer, alike.counters⟩
  · intro segment id get named text hidden
    have released : server.answer request now draws ⟨.ofStore s₁, m₁⟩ =
        server.release request segment ⟨.ofStore s₁, m₁⟩ := by
      simp only [answer, named, server, get, true_or, if_true]
    rw [respond_eq, released, server.release_eq_view request known text, Store.view_eq_none hidden]
    simp only [shown, get]
    rfl

def smallGet (id : String) : Http.Request where
  method := "GET"
  target := location id
  headers := [("x-client-key", Bytes.ofString "MBowDQYJKoZIhvcNAQEBBQADCQAwBgIBBQIBAw==")]
  body := []

def smallRecord : StoredCapsule :=
  Service.smallCapsule.record ⟨.last, false⟩ .first (TransactionId.ofBytes (List.replicate 16 9))

def otherRecord : StoredCapsule :=
  { smallRecord with
    id := TransactionId.ofBytes (List.replicate 16 7)
    recipient := [0x30, 6, 2, 1, 7, 2, 1, 3] }

def ownStore : Store := Store.empty.push smallRecord rfl

def sharedStore : Store := ownStore.push otherRecord (by decide +kernel)

/-- Asked for the other record, a store that has it answers as one that does not. -/
theorem otherRecord_hidden :
    let server : CapsuleServer := ⟨.get, .standard, ⟨true, "x-client-key"⟩⟩
    let answer := fun s => server.respond (smallGet otherRecord.id) .first (fun _ => .ok [])
      ⟨.ofStore s, .zero⟩
    (∃ r, sharedStore.find? otherRecord.id = some r) ∧ ownStore.find? otherRecord.id = none ∧
      Alike .zero .zero (answer sharedStore) (answer ownStore) ∧
      answer sharedStore =
        (⟨.ofStore sharedStore, ⟨0, 0, 1, 0⟩⟩, ApiError.notFound.response) := by
  intro server answer
  have known : server.identity.identify (smallGet otherRecord.id) = some (.rsa Service.smallKey) := by
    decide +kernel
  have others : ¬ otherRecord.AddressedTo (.rsa Service.smallKey) := by
    rw [← StoredCapsule.isFor_iff_addressedTo]
    decide +kernel
  have found : sharedStore.find? otherRecord.id = some otherRecord := Store.find?_push_self _
  have same (r : StoredCapsule) (own : r.AddressedTo (.rsa Service.smallKey)) :
      r ∈ sharedStore.records ↔ r ∈ ownStore.records := by
    have different : r ≠ otherRecord := by
      intro equal
      rw [equal] at own
      exact others own
    simp [sharedStore, Store.push, different]
  have hidden := others_capsules_hidden .standard server.identity (smallGet otherRecord.id) .first
    (fun _ => .ok []) (.rsa Service.smallKey) sharedStore ownStore .zero .zero known same
  have absent : ownStore.find? otherRecord.id = none := by decide +kernel
  refine ⟨⟨_, found⟩, absent, hidden.1, ?_⟩
  exact hidden.2 otherRecord.id.toList otherRecord.id rfl (by decide +kernel) (by decide +kernel)
    (.inr (.inr ⟨_, found, others⟩))

end SealedContainer
