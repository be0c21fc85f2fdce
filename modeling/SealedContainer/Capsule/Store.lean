import SealedContainer.Capsule

/-!
The capsules that a server keeps, each under its own id, and the calls that change them. A call may
fail for reasons of the storage, and then changes nothing.
-/

namespace SealedContainer

structure Store where
  records : List StoredCapsule
  /-- No two of them share an id, so that ids are keys. -/
  distinct : records.Pairwise (·.id ≠ ·.id)
  deriving DecidableEq

namespace Store

def empty : Store := ⟨[], .nil⟩

def find? (s : Store) (id : String) : Option StoredCapsule := s.records.find? (·.id = id)

theorem find?_eq_none {s : Store} {id : String} :
    s.find? id = none ↔ ∀ c ∈ s.records, c.id ≠ id := by
  simp [find?]

def push (s : Store) (c : StoredCapsule) (free : s.find? c.id = none) : Store where
  records := s.records ++ [c]
  distinct := by
    rw [find?_eq_none] at free
    exact List.pairwise_append.mpr ⟨s.distinct, List.pairwise_singleton _ _, by simpa using free⟩

def insert (s : Store) (c : StoredCapsule) : Except CapsuleError Store :=
  if free : s.find? c.id = none then .ok (s.push c free) else .error (.duplicate c.id)

def sweep (s : Store) (now : Instant) : Store where
  records := s.records.filter fun c => !c.expiredAt now
  distinct := s.distinct.filter _

def count (s : Store) : Nat := s.records.length

end Store

/-- A store, and what goes wrong in the next calls to it. Calls after those go through. -/
structure Storage where
  store : Store
  faults : List (Option CapsuleError)
  deriving DecidableEq

namespace Storage

def ofStore (s : Store) : Storage := ⟨s, []⟩

def call {α : Type} (s : Storage) (run : Store → Store × Except CapsuleError α) :
    Storage × Except CapsuleError α :=
  match s.faults with
  | some fault :: rest => (⟨s.store, rest⟩, .error fault)
  | faults =>
    let (store, result) := run s.store
    (⟨store, faults.tail⟩, result)

def insert (s : Storage) (c : StoredCapsule) : Storage × Except CapsuleError Unit :=
  s.call fun store =>
    match store.insert c with
    | .ok store => (store, .ok ())
    | .error e => (store, .error e)

def find (s : Storage) (id : String) : Storage × Except CapsuleError (Option StoredCapsule) :=
  s.call fun store => (store, .ok (store.find? id))

def deleteExpired (s : Storage) (now : Instant) : Storage × Except CapsuleError Nat :=
  s.call fun store =>
    let kept := store.sweep now
    (kept, .ok (store.count - kept.count))

end Storage

end SealedContainer
