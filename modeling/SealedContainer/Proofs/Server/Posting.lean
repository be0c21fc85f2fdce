import SealedContainer.Proofs.Server.Requests

/-!
What a server does with the capsules that are sent to it. Main statement: `post_all_or_nothing`. The
sender hears of success if and only if its capsule is stored: each way to refuse it comes before the
insertion, and nothing after the insertion can fail.
-/

namespace SealedContainer

/-- A record keeps all that it was made of. Key material that is absent is kept as empty. -/
structure StoredCapsule.Keeps (r : StoredCapsule) (c : Capsule) : Prop where
  kind : r.kind = c.kind
  recipient : c.recipient = some r.recipient
  payload : r.payload = c.keyMaterial.getD []

theorem Capsule.keeps_record {c : Capsule} (valid : c.validate = .ok ()) (resolved : ResolvedExpiry)
    (now : Instant) (id : String) : (c.record resolved now id).Keeps c where
  kind := rfl
  recipient := by
    obtain ⟨recipient, named⟩ := Capsule.isSome_recipient_of_validate valid
    simp [Capsule.record, named]
  payload := rfl

namespace CapsuleServer

variable {request : Http.Request} {state : ServerState}

theorem parse_of_readCapsule {c : Capsule} (read : readCapsule request = .ok c) :
    Capsule.parse request.body = .ok c := by
  unfold readCapsule at read
  split at read
  next => cases read
  next =>
    split at read
    next => cases read
    next =>
      split at read
      next parsed =>
        cases read
        exact parsed
      next => cases read
      next => cases read

/-- A request has added a record, and the answer and the counters tell so. -/
structure Added (request : Http.Request) (state : ServerState) (r : StoredCapsule)
    (after : ServerState × Http.Response) : Prop where
  sent : ∃ c, Capsule.parse request.body = .ok c ∧ r.Keeps c
  response : after.2 =
    ⟨201, [("location", "/key-capsules/" ++ r.id), ("x-expiry-time", r.expiry.text)], ""⟩
  counted : after.1.metrics = { state.metrics with created := state.metrics.created + 1 }

/-- A request has added nothing, and the answer and the counters do not tell otherwise. -/
structure Kept (state : ServerState) (after : ServerState × Http.Response) : Prop where
  store : after.1.storage.store = state.storage.store
  metrics : after.1.metrics = state.metrics
  status : after.2.status ≠ 201

variable {after : ServerState × Http.Response} {r : StoredCapsule}

theorem Added.status (added : Added request state r after) : after.2.status = 201 :=
  congrArg Http.Response.status added.response

theorem Kept.not_adds (kept : Kept state after) (r : StoredCapsule) :
    ¬ state.storage.store.Adds after.1.storage.store r := by
  rw [kept.store]
  exact Store.not_adds_self

theorem post_cases (policy : ExpiryPolicy) (identity : IdentitySource) (request : Http.Request)
    (now : Instant) (draws : Draws) (state : ServerState) :
    let after := CapsuleServer.respond ⟨.put, policy, identity⟩ request now draws state
    (∃ r, state.storage.store.Adds after.1.storage.store r ∧ Added request state r after) ∨
      Kept state after := by
  intro after
  have does := CapsuleServer.answer_does ⟨.put, policy, identity⟩ request now draws state
  simp only [after, respond_eq]
  generalize CapsuleServer.answer ⟨.put, policy, identity⟩ request now draws state = result at does ⊢
  cases does with
  | created left put posted read asked valid drawn free =>
      left
      refine ⟨_, Store.adds_push free, ?_⟩
      constructor
      · exact ⟨_, parse_of_readCapsule read, Capsule.keeps_record valid _ _ _⟩
      · exact shown_of_post posted _
      · rfl
  | released left get known found own => cases get
  | unfound left get => cases get
  | answered left uncreated unreleased =>
      right
      exact ⟨rfl, rfl, by simpa using uncreated⟩
  | refused e left =>
      right
      exact ⟨rfl, rfl, by simpa using e.status_ne.2⟩

/--
A request to a server that takes capsules is answered with 201 if and only if it added one record to
the store, whatever is stored already, whatever goes wrong in the storage and whichever ids are
drawn. Then the answer names the record and its expiry, the record holds what the body says, and one
more is counted. Otherwise no record and no counter changes. Between the insertion and the answer
nothing can fail, because every id and every instant may stand in a header.
-/
theorem post_all_or_nothing (policy : ExpiryPolicy) (identity : IdentitySource)
    (request : Http.Request) (now : Instant) (draws : Draws) (state : ServerState) :
    let after := CapsuleServer.respond ⟨.put, policy, identity⟩ request now draws state
    (after.2.status = 201 ↔ ∃ r, state.storage.store.Adds after.1.storage.store r) ∧
      (∀ r, state.storage.store.Adds after.1.storage.store r → Added request state r after) ∧
      (after.2.status ≠ 201 → after.1.storage.store = state.storage.store ∧
        after.1.metrics = state.metrics) ∧
      (∀ entropy, headerValue (location (TransactionId.ofBytes entropy)) =
        .ok (location (TransactionId.ofBytes entropy))) ∧
      ∀ t : Instant, headerValue t.text = .ok t.text := by
  intro after
  have legal := And.intro headerValue_location headerValue_text
  cases post_cases policy identity request now draws state with
  | inl added =>
      obtain ⟨r, adds, added⟩ := added
      refine ⟨⟨fun _ => ⟨r, adds⟩, fun _ => added.status⟩, ?_,
        fun other => absurd added.status other, legal⟩
      intro other too
      rw [adds.eq too]
      exact added
  | inr kept =>
      refine ⟨⟨fun status => absurd status kept.status, ?_⟩, ?_,
        fun _ => ⟨kept.store, kept.metrics⟩, legal⟩
      · intro added
        obtain ⟨r, adds⟩ := added
        exact absurd adds (kept.not_adds r)
      · intro r adds
        exact absurd adds (kept.not_adds r)

def smallPost : Http.Request where
  method := "POST"
  target := "/key-capsules"
  headers := [("Content-Type", Bytes.ofString "application/json"),
    (expiryHeader, Bytes.ofString "2025-01-31T12:00:00Z")]
  body := Bytes.ofString "\x7b\"capsule_type\":\"rsa\",\"recipient_id\":\"MAYCAQUCAQM=\"\x7d"

example : (CapsuleServer.respond ⟨.put, .standard, ⟨false, ""⟩⟩ smallPost .last
    (fun _ => .ok (List.replicate 16 9)) ⟨.ofStore .empty, .zero⟩).2 =
      ⟨201, [("location", "/key-capsules/KC09090909090909090909090909090909"),
        ("x-expiry-time", "2025-01-31T12:00:00Z")], ""⟩ := by decide +kernel

end CapsuleServer

end SealedContainer
