import SealedContainer.Server.Api
import SealedContainer.Proofs.Capsule.Storing
import SealedContainer.Proofs.Http.Field
import SealedContainer.Proofs.Outcome

/-!
What one request does to a server, whatever goes wrong in its storage. Main statement: `answer_does`.
A request adds a record and is answered with 201, or it takes a record out to its recipient and is
answered with 200, or it is answered with neither. In the last two cases the records stay as they are.
-/

namespace SealedContainer

open Outcome

namespace Store

/-- One store is another with one record more, under an id that was free. -/
structure Adds (s s' : Store) (r : StoredCapsule) : Prop where
  free : s.find? r.id = none
  records : s'.records = s.records ++ [r]

variable {s s' : Store} {r r' : StoredCapsule}

theorem adds_push (free : s.find? r.id = none) : s.Adds (s.push r free) r := ⟨free, rfl⟩

theorem not_adds_self : ¬ s.Adds s r := by
  intro adds
  have longer := congrArg List.length adds.records
  simp at longer

theorem Adds.eq (adds : s.Adds s' r) (too : s.Adds s' r') : r' = r := by
  have same := too.records.symm.trans adds.records
  simpa using same

end Store

namespace Storage

inductive Fetches (s : Storage) (id : String) (caller : PublicKey) :
    Storage × Except CapsuleError Capsule → Prop
  | found {r : StoredCapsule} {faults : List (Option CapsuleError)} (left : faults <:+ s.faults)
    (stored : s.store.find? id = some r) (own : r.isFor caller = true) :
    Fetches s id caller (⟨s.store, faults⟩, .ok r.toCapsule)
  | refused (e : CapsuleError) {faults : List (Option CapsuleError)} (left : faults <:+ s.faults) :
    Fetches s id caller (⟨s.store, faults⟩, .error e)

theorem fetch_fetches (s : Storage) (id : String) (caller : PublicKey) :
    s.Fetches id caller (s.fetch id caller) := by
  unfold fetch
  split
  next =>
    simp only [find]
    generalize ran : s.call _ = result
    cases ran ▸ s.call_called _ with
    | failed e left => exact .refused e left
    | through left =>
        cases stored : s.store.find? id with
        | none => exact .refused _ left
        | some r =>
            cases own : r.isFor caller with
            | false =>
                simp only [ok_bind, own]
                exact .refused _ left
            | true =>
                simp only [ok_bind, own]
                exact .found left stored own
  next => exact .refused _ List.suffix_rfl

end Storage

namespace ApiError

theorem status_ne (e : ApiError) : e.status ≠ 200 ∧ e.status ≠ 201 := by
  cases e <;> simp [status]

end ApiError

namespace CapsuleServer

theorem headerValue_of_plain {s : String} (plain : Http.Plain s) : headerValue s = .ok s :=
  if_pos (Http.isFieldText_of_plain plain)

theorem plain_location {id : String} (plain : Http.Plain id) : Http.Plain (location id) :=
  Http.plain_append.mpr ⟨by decide, plain⟩

theorem headerValue_location (entropy : Bytes) :
    headerValue (location (TransactionId.ofBytes entropy)) =
      .ok (location (TransactionId.ofBytes entropy)) :=
  headerValue_of_plain (plain_location (TransactionId.plain_ofBytes entropy))

theorem headerValue_text (t : Instant) : headerValue t.text = .ok t.text :=
  headerValue_of_plain t.plain_text

def createdResponse (r : StoredCapsule) : Http.Response :=
  ⟨201, [("location", location r.id), (expiryHeader, r.expiry.text)], ""⟩

/-- Whatever there is to tell of a record can be told, so the server does not fail after storing it. -/
theorem created_receipt {r : StoredCapsule} {entropy : Bytes}
    (named : r.id = TransactionId.ofBytes entropy) : created r.receipt = .ok (createdResponse r) := by
  simp only [created, StoredCapsule.receipt, named, headerValue_location, headerValue_text, ok_bind,
    pure_eq_ok, createdResponse]

def shown (request : Http.Request) (result : Except ApiError Http.Response) : Http.Response :=
  let response := match result with
    | .ok response => response
    | .error e => e.response
  if request.method = "HEAD" then response.withoutBody else response

theorem respond_eq (server : CapsuleServer) (request : Http.Request) (now : Instant) (draws : Draws)
    (state : ServerState) :
    server.respond request now draws state =
      ((server.answer request now draws state).1,
        shown request (server.answer request now draws state).2) := rfl

@[simp] theorem status_shown_ok (request : Http.Request) (response : Http.Response) :
    (shown request (.ok response)).status = response.status := by
  simp only [shown]
  split <;> rfl

@[simp] theorem status_shown_error (request : Http.Request) (e : ApiError) :
    (shown request (.error e)).status = e.status := by
  simp only [shown]
  split <;> rfl

theorem shown_of_post {request : Http.Request} (posted : request.method = "POST")
    (response : Http.Response) : shown request (.ok response) = response := by
  simp only [shown, posted]
  rfl

/-- All that a request can do, by its result. -/
inductive Does (server : CapsuleServer) (request : Http.Request) (now : Instant) (draws : Draws)
    (state : ServerState) : ServerState × Except ApiError Http.Response → Prop
  | created {c : Capsule} {requested : Option Instant} {n : Nat} {entropy : Bytes}
    {faults : List (Option CapsuleError)} (left : faults <:+ state.storage.faults)
    (put : server.mode = .put) (posted : request.method = "POST") (read : readCapsule request = .ok c)
    (asked : requestedExpiry request = .ok requested) (valid : c.validate = .ok ())
    (drawn : draws n = .ok entropy)
    (free : state.storage.store.find? (TransactionId.ofBytes entropy) = none) :
    Does server request now draws state
      (⟨⟨state.storage.store.push (Call.entry server.policy c requested now entropy) free, faults⟩,
          { state.metrics with created := state.metrics.created + 1 }⟩,
        .ok (createdResponse (Call.entry server.policy c requested now entropy)))
  | released {caller : PublicKey} {id : String} {r : StoredCapsule}
    {faults : List (Option CapsuleError)} (left : faults <:+ state.storage.faults)
    (get : server.mode = .get) (known : server.identity.identify request = some caller)
    (found : state.storage.store.find? id = some r) (own : r.isFor caller = true) :
    Does server request now draws state
      (⟨⟨state.storage.store, faults⟩,
          { state.metrics with fetched := state.metrics.fetched + 1 }⟩,
        .ok (.ofJson 200 r.toCapsule.print.toList))
  | unfound {faults : List (Option CapsuleError)} (left : faults <:+ state.storage.faults)
    (get : server.mode = .get) :
    Does server request now draws state
      (⟨⟨state.storage.store, faults⟩,
          { state.metrics with notFound := state.metrics.notFound + 1 }⟩, .error .notFound)
  | answered {response : Http.Response} {faults : List (Option CapsuleError)}
    (left : faults <:+ state.storage.faults) (uncreated : response.status ≠ 201)
    (unreleased : response.status ≠ 200) :
    Does server request now draws state
      (⟨⟨state.storage.store, faults⟩, state.metrics⟩, .ok response)
  | refused (e : ApiError) {faults : List (Option CapsuleError)}
    (left : faults <:+ state.storage.faults) :
    Does server request now draws state
      (⟨⟨state.storage.store, faults⟩, state.metrics⟩, .error e)

variable (server : CapsuleServer) (request : Http.Request) (now : Instant) (draws : Draws)
  (state : ServerState)

theorem create_does (put : server.mode = .put) (posted : request.method = "POST") :
    server.Does request now draws state (server.create request now draws state) := by
  unfold create
  cases read : readCapsule request with
  | error e => exact .refused e List.suffix_rfl
  | ok c =>
      cases asked : requestedExpiry request with
      | error e => exact .refused e List.suffix_rfl
      | ok requested =>
          have stores := c.store_stores server.policy requested now draws state.storage
          simp only [ok_bind, pure_eq_ok]
          generalize c.store server.policy requested now draws state.storage = result at stores ⊢
          cases stores with
          | @added n entropy faults left valid drawn free =>
              have told : created (Call.entry server.policy c requested now entropy).receipt =
                  .ok (createdResponse (Call.entry server.policy c requested now entropy)) :=
                created_receipt rfl
              simp only [told]
              exact .created left put posted read asked valid drawn free
          | refused e left => exact .refused _ left

theorem release_does (get : server.mode = .get) (segment : List Char) :
    server.Does request now draws state (server.release request segment state) := by
  unfold release
  cases known : server.identity.identify request with
  | none => exact .refused _ List.suffix_rfl
  | some caller =>
      cases text : Bytes.toString? (Http.Target.unescaped segment) with
      | none => exact .answered List.suffix_rfl (by decide) (by decide)
      | some id =>
          have fetches := state.storage.fetch_fetches id caller
          simp only
          generalize state.storage.fetch id caller = result at fetches ⊢
          cases fetches with
          | found left stored own => exact .released left get known stored own
          | refused e left =>
              cases e with
              | notFound => exact .unfound left get
              | _ => exact .refused _ left

theorem answer_does :
    server.Does request now draws state (server.answer request now draws state) := by
  have notAllowed (methods : String) :
      server.Does request now draws state (state, .ok (.notAllowed methods)) :=
    .answered List.suffix_rfl (by simp [Http.Response.notAllowed]) (by simp [Http.Response.notAllowed])
  unfold answer
  cases (Http.Target.path? request.target).bind resource? with
  | none => exact .answered List.suffix_rfl (by decide) (by decide)
  | some resource =>
      cases mode : server.mode with
      | put =>
          cases resource with
          | capsules =>
              by_cases posted : request.method = "POST"
              · simp only [if_pos posted]
                exact server.create_does request now draws state mode posted
              · simp only [if_neg posted]
                exact notAllowed _
          | capsule segment => exact .refused _ List.suffix_rfl
      | get =>
          cases resource with
          | capsules => exact .refused _ List.suffix_rfl
          | capsule segment =>
              by_cases asked : request.method = "GET" ∨ request.method = "HEAD"
              · simp only [if_pos asked]
                exact server.release_does request now draws state mode segment
              · simp only [if_neg asked]
                exact notAllowed _

end CapsuleServer

end SealedContainer
