import SealedContainer.Proofs.Capsule.Release
import SealedContainer.Proofs.Server.Posting
import SealedContainer.Proofs.Server.Privacy

/-!
The two modes of a server. Main statement: `modes_separated`. A server that gives capsules out never
changes what is stored, and what a server that takes them answers and adds is decided without a look
at what is stored already, as long as the id that it draws is free (`store_of_lacks`).
-/

namespace SealedContainer

open Outcome

def Store.Lacks (s : Store) (draws : Draws) : Prop :=
  ∀ entropy, draws 0 = .ok entropy → s.find? (TransactionId.ofBytes entropy) = none

namespace Capsule

variable (c : Capsule) (policy : ExpiryPolicy) (requested : Option Instant) (now : Instant)
  {draws : Draws}

def fresh (draws : Draws) : Except CapsuleError StoredCapsule := do
  c.validate
  match draws 0 with
  | .ok entropy => return Call.entry policy c requested now entropy
  | .error e => throw (.crypto e)

theorem store_of_lacks {s : Store} (lacks : s.Lacks draws) :
    ∃ s' : Store, c.store policy requested now draws (.ofStore s) =
        (.ofStore s', (c.fresh policy requested now draws).map StoredCapsule.receipt) ∧
      s'.records = s.records ++ (c.fresh policy requested now draws).toOption.toList := by
  cases valid : c.validate with
  | error e =>
      simp only [fresh, valid, error_bind]
      exact ⟨s, store_of_invalid valid, (List.append_nil _).symm⟩
  | ok =>
      simp only [fresh, valid, ok_bind]
      cases drawn : draws 0 with
      | error e =>
          have refused : insertFresh (c.record (policy.resolve requested now) now) draws maxRetries 0
              (.ofStore s) = (.ofStore s, .error (.crypto e)) := insertFresh_of_error _ _ drawn
          refine ⟨s, ?_, (List.append_nil _).symm⟩
          simp only [store, valid, refused]
          rfl
      | ok entropy => exact ⟨_, store_of_free valid drawn (lacks entropy drawn), rfl⟩

end Capsule

namespace CapsuleServer

/-- Two results of one request that are alike, and the two stores have got the same record, if any. -/
structure Adding {α : Type} (s₁ s₂ : Store) (m₁ m₂ : Metrics) (a b : ServerState × α) : Prop
    extends Alike m₁ m₂ a b where
  added : ∃ r : Option StoredCapsule, a.1.storage.store.records = s₁.records ++ r.toList ∧
    b.1.storage.store.records = s₂.records ++ r.toList

theorem Adding.of_unchanged {α : Type} (s₁ s₂ : Store) (m₁ m₂ : Metrics) (result : α) :
    Adding s₁ s₂ m₁ m₂ (⟨.ofStore s₁, m₁⟩, result) (⟨.ofStore s₂, m₂⟩, result) where
  toAlike := .of_unchanged s₁ s₂ m₁ m₂ result
  added := ⟨none, (List.append_nil _).symm, (List.append_nil _).symm⟩

variable (server : CapsuleServer) (request : Http.Request) (now : Instant) {draws : Draws}
  {s₁ s₂ : Store} (m₁ m₂ : Metrics)

theorem create_adding (lacks₁ : s₁.Lacks draws) (lacks₂ : s₂.Lacks draws) :
    Adding s₁ s₂ m₁ m₂ (server.create request now draws ⟨.ofStore s₁, m₁⟩)
      (server.create request now draws ⟨.ofStore s₂, m₂⟩) := by
  unfold create
  cases readCapsule request with
  | error e => exact .of_unchanged s₁ s₂ m₁ m₂ _
  | ok c =>
      cases requestedExpiry request with
      | error e => exact .of_unchanged s₁ s₂ m₁ m₂ _
      | ok requested =>
          obtain ⟨after₁, stored₁, records₁⟩ := c.store_of_lacks server.policy requested now lacks₁
          obtain ⟨after₂, stored₂, records₂⟩ := c.store_of_lacks server.policy requested now lacks₂
          simp only [ok_bind, pure_eq_ok, stored₁, stored₂]
          -- The record added and the answer both come of it, and are split on together.
          generalize c.fresh server.policy requested now draws = added at records₁ records₂ ⊢
          cases added with
          | error e => exact ⟨⟨rfl, .zero, rfl, rfl⟩, none, records₁, records₂⟩
          | ok r => exact ⟨⟨rfl, ⟨1, 0, 0, 0⟩, rfl, rfl⟩, some r, records₁, records₂⟩

theorem answer_adding (put : server.mode = .put) (lacks₁ : s₁.Lacks draws)
    (lacks₂ : s₂.Lacks draws) :
    Adding s₁ s₂ m₁ m₂ (server.answer request now draws ⟨.ofStore s₁, m₁⟩)
      (server.answer request now draws ⟨.ofStore s₂, m₂⟩) := by
  unfold answer
  cases (Http.Target.path? request.target).bind resource? with
  | none => exact .of_unchanged s₁ s₂ m₁ m₂ _
  | some resource =>
      simp only [put]
      cases resource with
      | capsule segment => exact .of_unchanged s₁ s₂ m₁ m₂ _
      | capsules =>
          simp only
          split
          next => exact server.create_adding request now m₁ m₂ lacks₁ lacks₂
          next => exact .of_unchanged s₁ s₂ m₁ m₂ _

/-- A server that gives capsules out has nothing to add to the store, whatever it is asked. -/
theorem store_answer_of_get (get : server.mode = .get) (draws : Draws) (state : ServerState) :
    (server.answer request now draws state).1.storage.store = state.storage.store := by
  have does := server.answer_does request now draws state
  generalize server.answer request now draws state = result at does ⊢
  cases does with
  | created left put =>
      rw [get] at put
      cases put
  | _ => rfl

/--
Each mode keeps to its side of the store. Whatever a server that gives capsules out is asked, by any
method, for any path and with any headers and body, it leaves the store as it is, even when calls to
it fail. A server that takes capsules answers a request the same with any two stores that lack the
first id drawn, counts the same and adds the same record to both, or none, so that no answer tells
what is stored.
-/
theorem modes_separated (policy : ExpiryPolicy) (identity : IdentitySource)
    (request : Http.Request) (now : Instant) (draws : Draws) :
    (∀ state : ServerState,
      (CapsuleServer.respond ⟨.get, policy, identity⟩ request now draws state).1.storage.store =
        state.storage.store) ∧
    ∀ (s₁ s₂ : Store) (m₁ m₂ : Metrics), s₁.Lacks draws → s₂.Lacks draws →
      Adding s₁ s₂ m₁ m₂
        (CapsuleServer.respond ⟨.put, policy, identity⟩ request now draws ⟨.ofStore s₁, m₁⟩)
        (CapsuleServer.respond ⟨.put, policy, identity⟩ request now draws ⟨.ofStore s₂, m₂⟩) := by
  constructor
  · intro state
    exact CapsuleServer.store_answer_of_get ⟨.get, policy, identity⟩ request now rfl draws state
  · intro s₁ s₂ m₁ m₂ lacks₁ lacks₂
    have adding :=
      CapsuleServer.answer_adding ⟨.put, policy, identity⟩ request now m₁ m₂ rfl lacks₁ lacks₂
    exact ⟨⟨congrArg (shown request) adding.answer, adding.counters⟩, adding.added⟩

/-- An empty store and one with two records take the small capsule alike, and keep it. -/
theorem smallPost_taken_alike :
    let put : CapsuleServer := ⟨.put, .standard, ⟨false, ""⟩⟩
    let draws : Draws := fun _ => .ok (List.replicate 16 3)
    let after : Store → ServerState × Http.Response := fun s =>
      put.respond smallPost .last draws ⟨.ofStore s, .zero⟩
    sharedStore.Lacks draws ∧ Adding .empty sharedStore .zero .zero (after .empty) (after sharedStore) ∧
      (after sharedStore).2.status = 201 ∧ (after sharedStore).1.storage.store.count = 3 := by
  intro put draws after
  have lacks : sharedStore.Lacks draws := by
    intro entropy drawn
    cases drawn
    decide +kernel
  have separated := (modes_separated .standard put.identity smallPost .last draws).2 .empty sharedStore
    .zero .zero (fun _ _ => rfl) lacks
  exact ⟨lacks, separated, by decide +kernel, by decide +kernel⟩

end CapsuleServer

end SealedContainer
