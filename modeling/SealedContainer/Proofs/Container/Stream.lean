import Mathlib.Data.List.Infix
import SealedContainer.Container.Stream

/-!
What reading takes from a stream and what writing leaves in one, whatever the size of the pieces
in which the bytes come or go.
-/

namespace SealedContainer

namespace Source

@[simp] theorem readAll_ofBytes (bytes : Bytes) : (ofBytes bytes).readAll = .ok bytes := by
  simp [ofBytes, readAll, Except.map]

theorem read_of_front (source : Source) (front : Bytes) (delivered : front <+: source.bytes) :
    ∃ rest : Source, source.read front.length = .ok (front, rest) ∧
      source.bytes = front ++ rest.bytes ∧ source.readAll = rest.readAll.map (front ++ ·) := by
  induction source generalizing front with
  | nil =>
      have nothing : front = [] := List.prefix_nil.mp delivered
      subst nothing
      exact ⟨[], rfl, rfl, rfl⟩
  | cons d tail ih =>
      by_cases empty : front = []
      · subst empty
        refine ⟨d :: tail, by simp [read], rfl, ?_⟩
        cases readAll (d :: tail) <;> rfl
      have some : front.length ≠ 0 := by simpa using empty
      cases d with
      | fail failure =>
          simp only [bytes, List.prefix_nil] at delivered
          exact absurd delivered empty
      | chunk b =>
          simp only [bytes] at delivered
          simp only [read, if_neg some, bytes, readAll]
          by_cases inside : front.length < b.length
          · rw [if_pos inside]
            rcases List.prefix_of_prefix_length_le delivered (List.prefix_append b _) (Nat.le_of_lt
              inside) with ⟨more, rfl⟩
            refine ⟨.chunk more :: tail, by simp, by simp [bytes], ?_⟩
            rw [readAll]
            cases readAll tail <;> simp [Except.map]
          · rw [if_neg inside]
            rcases List.prefix_of_prefix_length_le (List.prefix_append b _) delivered
              (Nat.le_of_not_lt inside) with ⟨more, rfl⟩
            rcases ih more ((List.prefix_append_right_inj b).mp delivered) with ⟨rest, got, split,
              all⟩
            refine ⟨rest, by simp [got], by simp [split], ?_⟩
            rw [all]
            cases readAll rest <;> simp [Except.map]

theorem readAll_of_split {rest : Source} {front back : Bytes}
    (split : .ok (front ++ back) = rest.readAll.map (front ++ ·)) : rest.readAll = .ok back := by
  cases remains : rest.readAll with
  | error failure => simp [remains, Except.map] at split
  | ok bytes =>
      simp only [remains, Except.map, Except.ok.injEq] at split
      rw [List.append_cancel_left split]

theorem bytes_of_readAll (source : Source) (all : Bytes) (delivered : source.readAll = .ok all) :
    source.bytes = all := by
  induction source generalizing all with
  | nil => cases delivered; rfl
  | cons d tail ih =>
      cases d with
      | fail failure => cases delivered
      | chunk b =>
          simp only [readAll] at delivered
          cases later : readAll tail with
          | error failure => simp [later, Except.map] at delivered
          | ok more =>
              simp only [later, Except.map, Except.ok.injEq] at delivered
              rw [bytes, ih more later, delivered]

def failure? : Source → Option StreamFailure
  | [] => none
  | .chunk _ :: rest => failure? rest
  | .fail failure :: _ => some failure

/-- A stream is read to its end unless it fails, in whatever pieces it comes. -/
theorem readAll_eq (source : Source) :
    source.readAll = match source.failure? with
      | some failure => .error failure
      | none => .ok source.bytes := by
  induction source with
  | nil => rfl
  | cons d tail ih =>
      cases d with
      | fail failure => rfl
      | chunk b =>
          rw [readAll, ih, failure?, bytes]
          cases failure? tail <;> rfl

/-- Taking `front` off a stream leaves the rest of it as it was. -/
inductive Cut : Source → Bytes → Source → Prop where
  | here (source : Source) : Cut source [] source
  | within (front back : Bytes) (later : Source) :
      Cut (.chunk (front ++ back) :: later) front (.chunk back :: later)
  | beyond (b : Bytes) {front : Bytes} {later rest : Source} (cut : Cut later front rest) :
      Cut (.chunk b :: later) (b ++ front) rest

theorem Cut.bytes_eq {source rest : Source} {front : Bytes} (cut : source.Cut front rest) :
    source.bytes = front ++ rest.bytes := by
  induction cut with
  | here => rfl
  | within front back later => simp [bytes]
  | beyond b cut ih => simp [bytes, ih]

theorem Cut.failure?_eq {source rest : Source} {front : Bytes} (cut : source.Cut front rest) :
    rest.failure? = source.failure? := by
  induction cut with
  | here => rfl
  | within => rfl
  | beyond b cut ih => exact ih

theorem Cut.readAll_eq {source rest : Source} {front : Bytes} (cut : source.Cut front rest) :
    source.readAll = rest.readAll.map (front ++ ·) := by
  induction cut with
  | here source => cases source.readAll <;> rfl
  | within front back later =>
      simp only [readAll]
      cases readAll later <;> simp [Except.map]
  | @beyond b front later rest cut ih =>
      rw [readAll, ih]
      cases rest.readAll <;> simp [Except.map]

theorem Cut.trans {source middle rest : Source} {front back : Bytes}
    (first : source.Cut front middle) (second : middle.Cut back rest) :
    source.Cut (front ++ back) rest := by
  induction first with
  | here => exact second
  | beyond b cut ih =>
      rw [List.append_assoc]
      exact .beyond b (ih second)
  | within front held later =>
      cases second with
      | here =>
          rw [List.append_nil]
          exact .within front held later
      | within back held =>
          rw [← List.append_assoc]
          exact .within (front ++ back) held later
      | beyond b cut =>
          rw [← List.append_assoc]
          exact .beyond (front ++ held) cut

/-- Whatever a read gives is taken off the stream, and nothing else is. -/
theorem cut_of_read {source rest : Source} {count : Nat} {got : Bytes}
    (read : source.read count = .ok (got, rest)) : source.Cut got rest := by
  induction source generalizing count got with
  | nil =>
      cases read
      exact .here []
  | cons d tail ih =>
      unfold Source.read at read
      split at read
      next =>
        cases read
        exact .here _
      next =>
        cases d with
        | fail failure => cases read
        | chunk b =>
            simp only at read
            split at read
            next =>
              cases read
              have within := Cut.within (b.take count) (b.drop count) tail
              rwa [List.take_append_drop] at within
            next =>
              split at read
              next more left later =>
                cases read
                exact .beyond b (ih later)
              next => cases read

theorem read_of_short {source : Source} {count : Nat} (short : source.bytes.length < count) :
    source.read count = match source.failure? with
      | some failure => .error failure
      | none => .ok (source.bytes, []) := by
  induction source generalizing count with
  | nil => rfl
  | cons d tail ih =>
      have asked : count ≠ 0 := by omega
      cases d with
      | fail failure => simp only [read, if_neg asked, failure?]
      | chunk b =>
          simp only [bytes, List.length_append] at short
          have beyond : ¬ count < b.length := by omega
          have later := @ih (count - b.length) (by omega)
          simp only [read, if_neg asked, if_neg beyond, later, failure?, bytes]
          cases failure? tail <;> rfl

theorem length_le_of_read {source rest : Source} {count : Nat} {got : Bytes}
    (read : source.read count = .ok (got, rest)) : got.length ≤ count := by
  by_cases long : count ≤ source.bytes.length
  · obtain ⟨_, front, _⟩ := source.read_of_front (source.bytes.take count) (List.take_prefix _ _)
    rw [List.length_take, Nat.min_eq_left long, read] at front
    cases front
    exact List.length_take_le _ _
  · rw [read_of_short (Nat.lt_of_not_le long)] at read
    split at read
    next => cases read
    next =>
      cases read
      omega

end Source

def Sink.Sound (sink : Sink) : Prop := ∀ text, Uptake.fail text ∉ sink.uptakes

namespace Sink

theorem writeBytes_sound (written : Bytes) (uptakes : List Uptake) (bytes : Bytes)
    (sound : ∀ text, Uptake.fail text ∉ uptakes) :
    ∃ left : Sink, writeBytes written uptakes bytes = (left, .ok ()) ∧
      left.written = written ++ bytes ∧ left.Sound := by
  fun_induction writeBytes written uptakes bytes with
  | case1 written uptakes => exact ⟨⟨uptakes, written⟩, rfl, by simp, sound⟩
  | case2 written bytes _ => exact ⟨⟨[], written ++ bytes⟩, rfl, rfl, by simp [Sound]⟩
  | case3 written text rest bytes _ => exact absurd (List.mem_cons_self ..) (sound text)
  | case4 written n rest bytes _ fits =>
      refine ⟨_, rfl, rfl, ?_⟩
      intro text member
      simp only [List.mem_cons, reduceCtorEq, false_or] at member
      exact sound text (List.mem_cons_of_mem _ member)
  | case5 written n rest bytes _ full ih =>
      obtain ⟨left, result, got, kept⟩ :=
        ih fun text member => sound text (List.mem_cons_of_mem _ member)
      refine ⟨left, result, ?_, kept⟩
      rw [got, List.append_assoc, List.take_append_drop]

theorem writeEach_sound (sink : Sink) (pieces : List Bytes) (sound : sink.Sound) :
    ∃ left : Sink, sink.writeEach pieces = (left, .ok ()) ∧
      left.written = sink.written ++ pieces.flatten := by
  induction pieces generalizing sink with
  | nil => exact ⟨sink, rfl, by simp⟩
  | cons piece pieces ih =>
      rcases writeBytes_sound sink.written sink.uptakes piece sound with ⟨next, wrote, got, kept⟩
      rcases ih next kept with ⟨left, result, all⟩
      refine ⟨left, ?_, ?_⟩
      · simp only [writeEach, write, wrote, result]
      · rw [all, got, List.flatten_cons, List.append_assoc]

theorem written_of_writeBytes (written : Bytes) (uptakes : List Uptake) (bytes : Bytes)
    {left : Sink} (wrote : writeBytes written uptakes bytes = (left, .ok ())) :
    left.written = written ++ bytes := by
  fun_induction writeBytes written uptakes bytes with
  | case1 written uptakes =>
      cases wrote
      simp
  | case2 written bytes _ =>
      cases wrote
      rfl
  | case3 written text rest bytes _ => cases wrote
  | case4 written n rest bytes _ fits =>
      cases wrote
      rfl
  | case5 written n rest bytes _ full ih =>
      rw [ih wrote, List.append_assoc, List.take_append_drop]

theorem written_of_writeEach (sink : Sink) (pieces : List Bytes) {left : Sink}
    (wrote : sink.writeEach pieces = (left, .ok ())) :
    left.written = sink.written ++ pieces.flatten := by
  induction pieces generalizing sink with
  | nil =>
      cases wrote
      simp
  | cons piece pieces ih =>
      cases first : sink.write piece with
      | mk next result =>
          cases result with
          | error text =>
              simp only [writeEach, first, Prod.mk.injEq] at wrote
              cases wrote.2
          | ok _ =>
              simp only [writeEach, first] at wrote
              rw [ih next wrote, written_of_writeBytes _ _ _ first, List.flatten_cons,
                List.append_assoc]

end Sink

end SealedContainer
