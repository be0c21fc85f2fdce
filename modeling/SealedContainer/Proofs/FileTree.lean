import Mathlib.Data.String.Basic
import SealedContainer.FileTree
import SealedContainer.Proofs.Container.Stream
import SealedContainer.Proofs.Outcome

/-!
Files that are written are found again. Main statements: `find_write` of the file itself and
`find_write_other` of every other. Which place a path leads to is not changed by writing, for the
directories on the way stay what they are.
-/

namespace SealedContainer.FileTree

open Outcome

variable {t u : FileTree} {path other : String} {place : Place} {content : Bytes}

theorem lookup_put (nodes : List (Place × Node)) (place p : Place) (n : Node) :
    (nodes.filter (·.1 ≠ place) ++ [(place, n)]).lookup p =
      if p = place then some n else nodes.lookup p := by
  induction nodes with
  | nil =>
      by_cases same : p = place
      · simp [same]
      · simp [List.lookup_cons, same, beq_eq_false_iff_ne.mpr same]
  | cons node nodes ih =>
      by_cases replaced : node.1 = place
      · rw [List.filter_cons_of_neg (by simp [replaced]), ih]
        by_cases same : p = place
        · rw [if_pos same, if_pos same]
        · have different : (p == node.1) = false :=
            beq_eq_false_iff_ne.mpr (replaced ▸ same)
          rw [if_neg same, if_neg same, List.lookup_cons, different]
      · rw [List.filter_cons_of_pos (by simp [replaced]), List.cons_append, List.lookup_cons, ih,
          List.lookup_cons]
        cases here : p == node.1 with
        | true =>
            have same : p ≠ place := beq_iff_eq.mp here ▸ replaced
            exact (if_neg same).symm
        | false => rfl

theorem node?_put (free : t.node? place ≠ some .directory) (content : Bytes) (p : Place) :
    (t.put place content).node? p =
      if p = place then some (.file content) else t.node? p := by
  have inner : ¬ (place = [] ∨ place = root) := fun top => free (if_pos top)
  unfold node?
  by_cases top : p = [] ∨ p = root
  · have different : p ≠ place := by
      rintro rfl
      exact inner top
    rw [if_pos top, if_pos top, if_neg different]
  · rw [if_neg top, if_neg top]
    exact lookup_put _ _ _ _

theorem follow_put (free : t.node? place ≠ some .directory) (content : Bytes) {start p : Place}
    {names : List String} (led : t.follow start names = .ok p) :
    (t.put place content).follow start names = .ok p := by
  -- By recursion along the path: every directory on the way is still there.
  fun_induction follow t start names with
  | case1 start => exact led
  | case2 start name => exact led
  | case3 start name rest more next directory ih =>
      have kept : (t.put place content).node? next = some .directory := by
        have different : next ≠ place := by
          rintro rfl
          exact free directory
        rw [node?_put free, if_neg different, directory]
      rw [follow]
      · simp only [next] at kept
        rw [kept]
        exact ih led
      · exact more
  | case4 => cases led
  | case5 => cases led

theorem locate_put (free : t.node? place ≠ some .directory) (content : Bytes) {p : Place}
    (led : t.locate path = .ok p) : (t.put place content).locate path = .ok p := by
  unfold locate at led ⊢
  split at led
  next => cases led
  next named =>
    rw [if_neg named]
    exact follow_put free content led

theorem write_eq_ok :
    t.write path content = .ok u ↔ ∃ place, t.locate path = .ok place ∧
      t.node? place ≠ some .directory ∧ namesDirectory path = false ∧
      u = t.put place content := by
  simp only [write, bind_eq_ok]
  apply exists_congr
  intro place
  apply and_congr_right
  intro _
  cases t.node? place with
  | none => cases namesDirectory path <;> simp [eq_comm]
  | some node =>
      cases node with
      | directory => simp
      | file old => cases namesDirectory path <;> simp [eq_comm]

theorem find_eq_ok {node : Node} :
    t.find path = .ok node ↔ ∃ place, t.locate path = .ok place ∧ t.node? place = some node ∧
      (node = .directory ∨ namesDirectory path = false) := by
  simp only [find, bind_eq_ok]
  apply exists_congr
  intro place
  apply and_congr_right
  intro _
  cases t.node? place with
  | none => simp
  | some there =>
      simp only [pure_eq_ok, throw_eq_error]
      cases there with
      | directory =>
          constructor
          · rintro ⟨⟩
            exact ⟨rfl, .inl rfl⟩
          · rintro ⟨⟨⟩, _⟩
            rfl
      | file old =>
          cases namesDirectory path with
          | false => simp
          | true =>
              constructor
              · rintro ⟨⟩
              · rintro ⟨⟨⟩, ⟨⟨⟩⟩ | ⟨⟨⟩⟩⟩

theorem openFile_eq_ok {source : Source} :
    t.openFile path = .ok source ↔ ∃ node, t.find path = .ok node ∧
      source = match node with
        | .file content => .ofBytes content
        | .directory => [.fail FileError.isDirectory.message] := by
  simp only [openFile, bind_eq_ok]
  apply exists_congr
  intro node
  apply and_congr_right
  intro _
  cases node <;> simp [eq_comm]

theorem find_of_readAll {source : Source}
    (opened : t.openFile path = .ok source) (read : source.readAll = .ok content) :
    t.find path = .ok (.file content) := by
  obtain ⟨node, found, rfl⟩ := openFile_eq_ok.mp opened
  cases node with
  | directory => cases read
  | file held =>
      cases (Source.readAll_ofBytes held).symm.trans read
      exact found

theorem readText_of_find {text : String} (found : t.find path = .ok (.file (Bytes.ofString text))) :
    t.readText path = .ok text := by
  simp only [readText, found, ok_bind, Bytes.toString?_ofString]
  rfl

section Written

variable (wrote : t.write path content = .ok u)

include wrote

/-- Whether a file can be written does not depend on what is written. -/
theorem exists_write (other : Bytes) : ∃ v, t.write path other = .ok v := by
  obtain ⟨place, led, free, plain, _⟩ := write_eq_ok.mp wrote
  exact ⟨_, write_eq_ok.mpr ⟨place, led, free, plain, rfl⟩⟩

theorem locate_write {place : Place} (led : t.locate other = .ok place) :
    u.locate other = .ok place := by
  obtain ⟨_, _, free, _, rfl⟩ := write_eq_ok.mp wrote
  exact locate_put free content led

theorem find_write : u.find path = .ok (.file content) := by
  obtain ⟨place, led, free, plain, rfl⟩ := write_eq_ok.mp wrote
  refine find_eq_ok.mpr ⟨place, locate_put free content led, ?_, .inr plain⟩
  rw [node?_put free, if_pos rfl]

theorem locate_ne_of_directory (found : t.find other = .ok .directory) :
    t.locate path ≠ t.locate other := by
  intro same
  obtain ⟨place, led, free, _⟩ := write_eq_ok.mp wrote
  obtain ⟨_, led', there, _⟩ := find_eq_ok.mp found
  cases led.symm.trans (same.trans led')
  exact free there

/-- What was there is what it was, unless both paths lead to it. -/
theorem find_write_other {node : Node} (found : t.find other = .ok node) :
    u.find other = .ok (if t.locate path = t.locate other then .file content else node) := by
  by_cases same : t.locate path = t.locate other
  · rw [if_pos same]
    obtain ⟨place, led, free, _, rfl⟩ := write_eq_ok.mp wrote
    obtain ⟨_, led', _, plain⟩ := find_eq_ok.mp found
    cases led.symm.trans (same.trans led')
    have file : node ≠ .directory := by
      rintro rfl
      exact locate_ne_of_directory wrote found same
    refine find_eq_ok.mpr ⟨place, locate_put free content led', ?_, .inr (plain.resolve_left file)⟩
    rw [node?_put free, if_pos rfl]
  · rw [if_neg same]
    obtain ⟨place, led, free, _, rfl⟩ := write_eq_ok.mp wrote
    obtain ⟨p, led', there, plain⟩ := find_eq_ok.mp found
    have different : p ≠ place := by
      rintro rfl
      exact same (led.trans led'.symm)
    refine find_eq_ok.mpr ⟨p, locate_put free content led', ?_, plain⟩
    rw [node?_put free, if_neg different, there]

theorem exists_write_of_write {v : FileTree} {more : Bytes} (later : t.write other more = .ok v) :
    ∃ w, u.write other more = .ok w := by
  obtain ⟨place, _, free, _, rfl⟩ := write_eq_ok.mp wrote
  obtain ⟨p, led, free', plain, _⟩ := write_eq_ok.mp later
  refine ⟨_, write_eq_ok.mpr ⟨p, locate_put free content led, ?_, plain, rfl⟩⟩
  rw [node?_put free]
  split
  next => simp
  next => exact free'

end Written

/-! ## Names by themselves -/

theorem splitOnAux_of_free (front back : List Char) (free : '/' ∉ back) :
    (String.ofList (front ++ back)).splitOnAux "/" 0 ⟨String.utf8Len front⟩ 0 [] =
      [String.ofList (front ++ back)] := by
  -- By induction on what is ahead, with what is behind as the front.
  induction back generalizing front with
  | nil =>
      have whole := String.extract_of_valid [] front []
      simp only [List.nil_append, String.utf8Len_nil, Nat.zero_add] at whole
      rw [String.splitOnAux, if_pos ((String.atEnd_of_valid front []).mpr rfl)]
      rw [List.append_nil] at whole ⊢
      exact congrArg (fun part => [part]) whole
  | cons c back ih =>
      have going : ¬ String.Pos.Raw.atEnd (String.ofList (front ++ c :: back))
          ⟨String.utf8Len front⟩ = true := by
        rw [String.atEnd_of_valid]
        exact List.cons_ne_nil _ _
      have slash : String.Pos.Raw.get "/" 0 = '/' := String.get_of_valid [] ['/']
      have other : ¬ (c == '/') = true := fun same => free (beq_iff_eq.mp same ▸ List.mem_cons_self)
      have rest := ih (front ++ [c]) fun member => free (List.mem_cons_of_mem _ member)
      have size : String.utf8Len (front ++ [c]) = String.utf8Len front + c.utf8Size := by simp
      rw [List.append_assoc, List.singleton_append, size, ← String.next_of_valid front c back] at rest
      rw [String.splitOnAux, if_neg going, String.get_of_valid, List.headD_cons, slash,
        if_neg other]
      exact rest

theorem splitOn_of_free (free : '/' ∉ path.toList) : path.splitOn "/" = [path] := by
  have split := splitOnAux_of_free [] path.toList free
  rw [List.nil_append, String.ofList_toList] at split
  exact split

def IsName (path : String) : Prop := '/' ∉ path.toList ∧ path ∉ ["", ".", ".."]

instance : DecidablePred IsName := fun _ => inferInstanceAs (Decidable (_ ∧ _))

section Name

variable (name : IsName path)

include name

theorem IsName.locate_eq : t.locate path = .ok [path] := by
  obtain ⟨free, inner⟩ := name
  have relative : path.startsWith "/" = false := by
    rw [Bool.eq_false_iff, ne_eq, String.startsWith_string_iff]
    rintro ⟨rest, same⟩
    exact free (same ▸ List.mem_cons_self)
  simp only [List.mem_cons, List.not_mem_nil, not_or, or_false] at inner
  simp [locate, names, splitOn_of_free free, relative, inner, follow, step]

theorem IsName.locate_ne (second : IsName other) (apart : path ≠ other) :
    t.locate path ≠ t.locate other := by
  rw [name.locate_eq, second.locate_eq]
  simpa using apart

theorem IsName.namesDirectory_eq : namesDirectory path = false := by
  obtain ⟨free, inner⟩ := name
  simp only [List.mem_cons, List.not_mem_nil, not_or, or_false] at inner
  simp [namesDirectory, splitOn_of_free free, inner]

theorem IsName.find_eq {node : Node} (there : t.node? [path] = some node) :
    t.find path = .ok node :=
  find_eq_ok.mpr ⟨_, name.locate_eq, there, .inr name.namesDirectory_eq⟩

theorem IsName.find_of_none (absent : t.node? [path] = none) : t.find path = .error .notFound := by
  simp only [find, name.locate_eq, ok_bind, absent]
  rfl

theorem IsName.write_eq (free : t.node? [path] ≠ some .directory) (content : Bytes) :
    t.write path content = .ok (t.put [path] content) :=
  write_eq_ok.mpr ⟨_, name.locate_eq, free, name.namesDirectory_eq, rfl⟩

end Name

theorem find_here (t : FileTree) : t.find "." = .ok .directory := by
  have free : '/' ∉ ".".toList := by decide
  have relative : ".".startsWith "/" = false := by
    rw [Bool.eq_false_iff, ne_eq, String.startsWith_string_iff]
    decide
  have here : t.locate "." = .ok [] := by
    simp [locate, names, splitOn_of_free free, relative, follow]
  exact find_eq_ok.mpr ⟨[], here, if_pos (.inl rfl), .inl rfl⟩

end SealedContainer.FileTree
