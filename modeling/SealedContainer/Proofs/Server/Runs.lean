import SealedContainer.Server.Sweep
import SealedContainer.Proofs.Server.Posting
import SealedContainer.Proofs.Server.Privacy
import Mathlib.Data.List.Induction

/-!
A server over its whole life: requests to any of its addresses and sweeps, in any order, one store
and one set of counters for all. Main statement: `run_conserves`. The counters add up to what is
stored and to what was answered, and a record stays until the first sweep past its expiry.
-/

namespace SealedContainer

open CapsuleServer

namespace Store

variable {s : Store} {r : StoredCapsule} {now : Instant}

@[simp] theorem count_push (free : s.find? r.id = none) : (s.push r free).count = s.count + 1 := by
  simp [count, push]

theorem count_sweep_le (s : Store) (now : Instant) : (s.sweep now).count ≤ s.count :=
  List.length_filter_le _ _

theorem not_mem_sweep (expired : r.expiry < now) : r ∉ (s.sweep now).records := by
  intro member
  have current := (List.mem_filter.mp member).2
  simp [StoredCapsule.expiredAt, expired] at current

end Store

/-- What happens to a server. The clock may show any time at each event. -/
inductive ServerEvent where
  /-- A request comes in at one of the addresses that share the store. -/
  | ask (server : CapsuleServer) (request : Http.Request) (now : Instant) (draws : Draws)
  | sweep (now : Instant)

structure Journal where
  state : ServerState
  answers : List Http.Response

namespace Journal

def idle : Journal := ⟨⟨.ofStore .empty, .zero⟩, []⟩

def step (j : Journal) : ServerEvent → Journal
  | .ask server request now draws =>
    let (state, response) := server.respond request now draws j.state
    ⟨state, j.answers ++ [response]⟩
  | .sweep now => { j with state := (j.state.sweep now).1 }

def run (j : Journal) (events : List ServerEvent) : Journal := events.foldl step j

abbrev store (j : Journal) : Store := j.state.storage.store

theorem run_append (j : Journal) (front back : List ServerEvent) :
    j.run (front ++ back) = (j.run front).run back := List.foldl_append

theorem run_concat (j : Journal) (events : List ServerEvent) (e : ServerEvent) :
    j.run (events ++ [e]) = (j.run events).step e := List.foldl_concat ..

/-- An answer that carries a capsule, or would carry it if it had been asked for by `GET`. -/
def Carries (response : Http.Response) : Prop :=
  ∃ c : Capsule, response = .ofJson 200 c.print.toList ∨
    response = (Http.Response.ofJson 200 c.print.toList).withoutBody

inductive Went (j : Journal) : ServerEvent → Journal → Prop
  | added {server : CapsuleServer} {request : Http.Request} {now : Instant} {draws : Draws}
    {r : StoredCapsule} {response : Http.Response} (free : j.store.find? r.id = none)
    (status : response.status = 201) :
    Went j (.ask server request now draws)
      ⟨⟨.ofStore (j.store.push r free),
        { j.state.metrics with created := j.state.metrics.created + 1 }⟩, j.answers ++ [response]⟩
  | released {server : CapsuleServer} {request : Http.Request} {now : Instant} {draws : Draws}
    {response : Http.Response} (status : response.status = 200) (carries : Carries response) :
    Went j (.ask server request now draws)
      ⟨⟨.ofStore j.store, { j.state.metrics with fetched := j.state.metrics.fetched + 1 }⟩,
        j.answers ++ [response]⟩
  | refused {server : CapsuleServer} {request : Http.Request} {now : Instant} {draws : Draws}
    {response : Http.Response} (notFound : Nat) (uncreated : response.status ≠ 201)
    (unreleased : response.status ≠ 200) :
    Went j (.ask server request now draws)
      ⟨⟨.ofStore j.store, { j.state.metrics with notFound }⟩, j.answers ++ [response]⟩
  | swept (now : Instant) :
    Went j (.sweep now)
      ⟨⟨.ofStore (j.store.sweep now),
        { j.state.metrics with
          expired := j.state.metrics.expired + (j.store.count - (j.store.sweep now).count) }⟩,
        j.answers⟩

/-- What is true of a server at every point of its life. -/
structure Balanced (j : Journal) : Prop where
  faults : j.state.storage.faults = []
  stored : j.store.count + j.state.metrics.expired = j.state.metrics.created
  created : j.state.metrics.created = j.answers.countP (·.status = 201)
  fetched : j.state.metrics.fetched = j.answers.countP (·.status = 200)
  carried : ∀ response ∈ j.answers, response.status = 200 → Carries response

variable {j j' : Journal} {e : ServerEvent} {r : StoredCapsule}

theorem carries_shown (request : Http.Request) (c : Capsule) :
    Carries (shown request (.ok (.ofJson 200 c.print.toList))) := by
  refine ⟨c, ?_⟩
  simp only [shown]
  split
  next => exact .inr rfl
  next => exact .inl rfl

theorem step_went (sound : j.state.storage.faults = []) (e : ServerEvent) : Went j e (j.step e) := by
  have whole (s : Store) {faults : List (Option CapsuleError)}
      (left : faults <:+ j.state.storage.faults) : Storage.mk s faults = .ofStore s := by
    rw [sound] at left
    rw [List.suffix_nil.mp left]
    rfl
  cases e with
  | ask server request now draws =>
      have does := server.answer_does request now draws j.state
      simp only [step, respond_eq]
      generalize server.answer request now draws j.state = result at does ⊢
      cases does with
      | created left put posted read asked valid drawn free =>
          rw [whole _ left]
          exact .added free (status_shown_ok _ _)
      | released left get known found own =>
          rw [whole _ left]
          exact .released (status_shown_ok _ _) (carries_shown _ _)
      | unfound left get =>
          rw [whole _ left]
          exact .refused _ (by simp [ApiError.status]) (by simp [ApiError.status])
      | answered left uncreated unreleased =>
          rw [whole _ left]
          exact .refused _ (by simpa using uncreated) (by simpa using unreleased)
      | refused e left =>
          rw [whole _ left]
          exact .refused _ (by simpa using e.status_ne.2) (by simpa using e.status_ne.1)
  | sweep now =>
      simp only [step, ServerState.sweep, Storage.deleteExpired, Storage.call, sound]
      exact .swept now

theorem balanced_idle : idle.Balanced where
  faults := rfl
  stored := rfl
  created := rfl
  fetched := rfl
  carried := by simp [idle]

theorem Balanced.of_went (balanced : j.Balanced) (went : Went j e j') : j'.Balanced := by
  -- One case for each thing that an event can do.
  have stored := balanced.stored
  cases went with
  | added free status =>
      constructor
      · rfl
      · simp only [store, Storage.ofStore, Store.count_push] at stored ⊢
        omega
      · simp [balanced.created, status]
      · simp [balanced.fetched, status]
      · exact List.forall_mem_append.mpr ⟨balanced.carried, by simp [status]⟩
  | released status carries =>
      constructor
      · rfl
      · exact stored
      · simp [balanced.created, status]
      · simp [balanced.fetched, status]
      · exact List.forall_mem_append.mpr ⟨balanced.carried, by simp [carries]⟩
  | refused notFound uncreated unreleased =>
      constructor
      · rfl
      · exact stored
      · simp [balanced.created, uncreated]
      · simp [balanced.fetched, unreleased]
      · exact List.forall_mem_append.mpr ⟨balanced.carried, by simp [unreleased]⟩
  | swept now =>
      have fewer := j.store.count_sweep_le now
      constructor
      · rfl
      · calc
          (j.store.sweep now).count +
                (j.state.metrics.expired + (j.store.count - (j.store.sweep now).count)) =
              j.store.count + j.state.metrics.expired := by omega
          _ = j.state.metrics.created := stored
      · exact balanced.created
      · exact balanced.fetched
      · exact balanced.carried

theorem Balanced.run (balanced : j.Balanced) (events : List ServerEvent) :
    (j.run events).Balanced := by
  -- By induction on the events, the last one first.
  induction events using List.reverseRecOn with
  | nil => exact balanced
  | append_singleton events e ih =>
      rw [run_concat]
      exact ih.of_went (step_went ih.faults e)

/-- No sweep among some events is past the expiry of a record. -/
def Unswept (r : StoredCapsule) (events : List ServerEvent) : Prop :=
  ∀ now, .sweep now ∈ events → ¬ r.expiry < now

/-- A record is stored now and after each of some events. -/
def Holds (j : Journal) (events : List ServerEvent) (r : StoredCapsule) : Prop :=
  ∀ front back, events = front ++ back → (j.run front).store.find? r.id = some r

/-- One of some events adds a record, which may have been there before. -/
def StoresAgain (j : Journal) (events : List ServerEvent) (r : StoredCapsule) : Prop :=
  ∃ front e back, events = front ++ e :: back ∧
    (j.run front).store.Adds (j.run (front ++ [e])).store r

theorem find?_of_went (went : Went j e j') (found : j.store.find? r.id = some r)
    (current : ∀ now, e = .sweep now → ¬ r.expiry < now) : j'.store.find? r.id = some r := by
  cases went with
  | added free status => exact Store.find?_push_of_some free found
  | released status carries => exact found
  | refused notFound uncreated unreleased => exact found
  | swept now => exact Store.find?_sweep_of_not_expired found (current now rfl)

theorem find?_run (balanced : j.Balanced) (found : j.store.find? r.id = some r)
    {events : List ServerEvent} (unswept : Unswept r events) :
    (j.run events).store.find? r.id = some r := by
  -- By induction on the events, the last one first.
  induction events using List.reverseRecOn with
  | nil => exact found
  | append_singleton events e ih =>
      rw [run_concat]
      apply find?_of_went (step_went (balanced.run events).faults e)
      · apply ih
        intro now member
        exact unswept now (List.mem_append_left _ member)
      · intro now last
        exact unswept now (by simp [last])

theorem not_mem_step_sweep (balanced : j.Balanced) {now : Instant} (expired : r.expiry < now) :
    r ∉ (j.step (.sweep now)).store.records := by
  have went := step_went balanced.faults (.sweep now)
  generalize j.step (.sweep now) = next at went ⊢
  cases went with
  | swept => exact Store.not_mem_sweep expired

/-- A record is there all the time if and only if no sweep has taken it out. -/
theorem holds_iff_unswept (balanced : j.Balanced) (found : j.store.find? r.id = some r)
    (events : List ServerEvent) : j.Holds events r ↔ Unswept r events := by
  constructor
  · intro held now member expired
    obtain ⟨front, back, cut⟩ := List.append_of_mem member
    have after := held (front ++ [.sweep now]) back (by simp [cut])
    rw [run_concat] at after
    exact not_mem_step_sweep (balanced.run front) expired (Store.mem_of_find? after)
  · intro unswept front back cut
    apply find?_run balanced found
    intro now member
    exact unswept now (by rw [cut]; exact List.mem_append_left back member)

theorem not_mem_of_went (went : Went j e j') (gone : r ∉ j.store.records)
    (other : ¬ j.store.Adds j'.store r) : r ∉ j'.store.records := by
  cases went with
  | @added _ _ _ _ r' _ free status =>
      intro member
      rcases List.mem_append.mp member with old | new
      · exact gone old
      · rw [List.mem_singleton.mp new] at other
        exact other (Store.adds_push free)
  | released status carries => exact gone
  | refused notFound uncreated unreleased => exact gone
  | swept now =>
      intro member
      exact gone (List.mem_filter.mp member).1

/-- What is gone stays gone while it is not stored anew. By induction on the events, the last one
first. -/
theorem not_mem_run (balanced : j.Balanced) (gone : r ∉ j.store.records)
    {events : List ServerEvent} (others : ¬ j.StoresAgain events r) :
    r ∉ (j.run events).store.records := by
  induction events using List.reverseRecOn with
  | nil => exact gone
  | append_singleton events e ih =>
      rw [run_concat]
      apply not_mem_of_went (step_went (balanced.run events).faults e)
      · apply ih
        intro again
        obtain ⟨front, e', back, cut, adds⟩ := again
        exact others ⟨front, e', back ++ [e], by simp [cut], adds⟩
      · intro adds
        exact others ⟨events, e, [], rfl, by rw [run_concat]; exact adds⟩

/-- A record that is not stored anew is there in the end if and only if no sweep has taken it out. -/
theorem mem_run_iff_unswept (balanced : j.Balanced) (found : j.store.find? r.id = some r)
    {events : List ServerEvent} (others : ¬ j.StoresAgain events r) :
    r ∈ (j.run events).store.records ↔ Unswept r events := by
  constructor
  · intro stored now member expired
    obtain ⟨front, back, cut⟩ := List.append_of_mem member
    have swept : (j.run (front ++ [.sweep now])).Balanced := balanced.run _
    have gone : r ∉ (j.run (front ++ [.sweep now])).store.records := by
      rw [run_concat]
      exact not_mem_step_sweep (balanced.run front) expired
    have ended : j.run events = (j.run (front ++ [.sweep now])).run back := by
      rw [← run_append, cut, List.append_assoc, List.singleton_append]
    rw [ended] at stored
    apply not_mem_run swept gone _ stored
    intro again
    obtain ⟨front', e, back', rfl, adds⟩ := again
    refine others ⟨front ++ .sweep now :: front', e, back', by simp [cut], ?_⟩
    simpa [run_append, run] using adds
  · intro unswept
    exact Store.mem_of_find? (find?_run balanced found unswept)

/--
However often capsules are sent, asked for and swept, at whatever times: what is stored and what was
swept add up to what was created, as many were created as answers say so, and as many were fetched as
answers carry a capsule. A record that one event adds is there all the time afterwards if and only if
no later sweep was past its expiry. Unless the very same record is stored anew, that also says when
it is there in the end.
-/
theorem run_conserves (events : List ServerEvent) :
    let j := idle.run events
    j.store.count + j.state.metrics.expired = j.state.metrics.created ∧
      j.state.metrics.created = j.answers.countP (·.status = 201) ∧
      j.state.metrics.fetched = j.answers.countP (·.status = 200) ∧
      (∀ response ∈ j.answers, response.status = 200 → Carries response) ∧
      ∀ front e back r, events = front ++ e :: back →
        (idle.run front).store.Adds (idle.run (front ++ [e])).store r →
        let after := idle.run (front ++ [e])
        (after.Holds back r ↔ Unswept r back) ∧
          (¬ after.StoresAgain back r → (r ∈ j.store.records ↔ Unswept r back)) := by
  intro j
  have balanced := balanced_idle.run events
  refine ⟨balanced.stored, balanced.created, balanced.fetched, balanced.carried, ?_⟩
  intro front e back r cut adds after
  have before : after.Balanced := balanced_idle.run (front ++ [e])
  have found : after.store.find? r.id = some r := Store.find?_of_mem (by simp [after, adds.records])
  constructor
  · exact holds_iff_unswept before found back
  · intro others
    have ended : j = after.run back := by
      simp only [j, after, cut, ← run_append, List.append_assoc, List.singleton_append]
    rw [ended]
    exact mem_run_iff_unswept before found others

def smallSent : ServerEvent :=
  .ask ⟨.put, .standard, ⟨false, ""⟩⟩ smallPost .last fun _ => .ok (List.replicate 16 9)

def smallAsked : ServerEvent :=
  .ask ⟨.get, .standard, ⟨true, "x-client-key"⟩⟩ (smallGet smallRecord.id) .last fun _ => .ok []

def sentRecord : StoredCapsule :=
  { smallRecord with
    expiry := ⟨1738324800, 0, by decide, by decide⟩
    created := .last }

/-- The capsule is fetched once. It is there after one sweep, and gone after another past its expiry. -/
theorem smallSent_conserves :
    (idle.run [smallSent]).Holds [smallAsked, .sweep .first] sentRecord ∧
      ¬ (idle.run [smallSent]).Holds [smallAsked, .sweep .first, .sweep .last] sentRecord ∧
      (idle.run [smallSent, smallAsked, .sweep .first, .sweep .last]).state.metrics = ⟨1, 1, 0, 1⟩ ∧
      (idle.run [smallSent, smallAsked, .sweep .first, .sweep .last]).answers.countP
        (·.status = 200) = 1 := by
  have adds : (idle.run []).store.Adds (idle.run ([] ++ [smallSent])).store sentRecord :=
    ⟨by decide +kernel, by decide +kernel⟩
  have early := (run_conserves [smallSent, smallAsked, .sweep .first]).2.2.2.2 [] smallSent
    [smallAsked, .sweep .first] sentRecord rfl adds
  have whole := run_conserves [smallSent, smallAsked, .sweep .first, .sweep .last]
  have late := whole.2.2.2.2 [] smallSent [smallAsked, .sweep .first, .sweep .last] sentRecord rfl adds
  have metrics : (idle.run [smallSent, smallAsked, .sweep .first, .sweep .last]).state.metrics =
      ⟨1, 1, 0, 1⟩ := by decide +kernel
  refine ⟨early.1.mpr ?_, ?_, metrics, ?_⟩
  · intro now member
    have same : now = .first := by simpa [smallAsked] using member
    rw [same]
    decide
  · intro held
    exact late.1.mp held .last (by simp) (by decide)
  · rw [← whole.2.2.1, metrics]

end Journal

end SealedContainer
