import SealedContainer.Proofs.Text.Scan
import SealedContainer.Toml.Parser
import SealedContainer.Toml

/-!
Strings are read back from each of the five forms that they are written in. Main statement:
`quotedString_quoted`. A form is chosen by what the text holds, so that whatever stands between the
marks is read as the text and the reader finds no other form first.
-/

namespace SealedContainer.Toml

open Scan

variable {rest : List Char}

/-! ## Escapes -/

theorem hexValue?_digits : ∀ n < 128,
    ['0', '0', Nat.digitChar (n / 16), (Nat.digitChar (n % 16)).toUpper].filterMap hexValue? =
      [0, 0, n / 16, n % 16] := by decide

theorem run_codePoint {c : Char} (ascii : c.toNat < 128) :
    (codePoint 4).run ('0' :: '0' :: Nat.digitChar (c.toNat / 16) ::
      (Nat.digitChar (c.toNat % 16)).toUpper :: rest) = some (c, rest) := by
  have value : [0, 0, c.toNat / 16, c.toNat % 16].foldl (fun n d => 16 * n + d) 0 = c.toNat := by
    simp only [List.foldl_cons, List.foldl_nil]
    omega
  have valid : c.toNat.isValidChar := c.valid
  rw [codePoint, run_bind run_get]
  simp only [List.take_succ_cons, List.take_zero, hexValue?_digits _ ascii, value, List.length_cons,
    List.length_nil, Nat.zero_add, Nat.reduceAdd, valid, true_and, if_true, List.drop_succ_cons,
    List.drop_zero, Char.ofNat_toNat]
  rfl

/-- How one character may stand in a string between quotation marks, of several lines or of one. -/
inductive Shown (multiline : Bool) (c : Char) : List Char → Prop
  | plain (printable : isPrintable c = true) (mark : c ≠ '"') (other : c ≠ '\\') :
      Shown multiline c [c]
  | line (several : multiline = true) (same : c = '\n') : Shown multiline c ['\n']
  | escaped (e : Char) (more : List Char) (solid : isGap e = false ∧ e ≠ '\n' ∧ e ≠ '\r')
      (read : ∀ rest, escape.run (e :: more ++ rest) = some (c, rest)) :
      Shown multiline c ('\\' :: e :: more)

theorem isControl_iff {c : Char} : isControl c = true ↔
    (c.toNat < 32 ∧ c ≠ '\t' ∧ c ≠ '\n') ∨ c.toNat = 127 := by
  simp only [isControl, Bool.or_eq_true, Bool.and_eq_true, decide_eq_true_eq, bne_iff_ne, ne_eq,
    beq_iff_eq, UInt32.lt_iff_toNat_lt, ← UInt32.toNat_inj, UInt32.reduceToNat, Char.toNat, and_assoc]

theorem isPrintable_iff {c : Char} : isPrintable c = true ↔
    c = '\t' ∨ (32 ≤ c.toNat ∧ c.toNat ≠ 127) := by
  simp only [isPrintable, Bool.or_eq_true, Bool.and_eq_true, decide_eq_true_eq, bne_iff_ne, ne_eq,
    beq_iff_eq, UInt32.le_iff_toNat_le, ← UInt32.toNat_inj, UInt32.reduceToNat, Char.toNat]

theorem isPrintable_of_not_isControl {c : Char} (other : isControl c = false) (inner : c ≠ '\n') :
    isPrintable c = true := by
  have outside := fun control => Bool.false_ne_true (other.symm.trans (isControl_iff.mpr control))
  rw [isPrintable_iff]
  by_cases tab : c = '\t'
  · exact .inl tab
  · right
    constructor
    · exact Nat.le_of_not_lt fun low => outside (.inl ⟨low, tab, inner⟩)
    · exact fun delete => outside (.inr delete)

theorem shown_mark (multiline : Bool) : Shown multiline '"' ['\\', '"'] :=
  .escaped '"' [] (by decide) fun _ => rfl

theorem shown_escapedChar (multiline : Bool) {c : Char} (mark : c ≠ '"') :
    Shown multiline c (escapedChar multiline c) := by
  unfold escapedChar
  split
  next same =>
    subst same
    exact .escaped 'b' [] (by decide) fun _ => rfl
  split
  next same =>
    subst same
    exact .escaped 't' [] (by decide) fun _ => rfl
  split
  next same =>
    split
    next several => exact .line several same
    next =>
      subst same
      exact .escaped 'n' [] (by decide) fun _ => rfl
  next inner =>
    split
    next same =>
      subst same
      exact .escaped 'f' [] (by decide) fun _ => rfl
    split
    next same =>
      subst same
      exact .escaped 'r' [] (by decide) fun _ => rfl
    split
    next same =>
      subst same
      exact .escaped '\\' [] (by decide) fun _ => rfl
    next other =>
      split
      next control =>
        have ascii : c.toNat < 128 := by
          rcases isControl_iff.mp control with low | delete
          · exact Nat.lt_trans low.1 (by decide)
          · exact Nat.lt_of_le_of_lt (Nat.le_of_eq delete) (by decide)
        exact .escaped 'u' _ (by decide) fun rest => run_codePoint ascii
      next visible =>
        exact .plain (isPrintable_of_not_isControl (by simpa using visible) inner) mark other

/-! ## Strings on one line -/

def basicPart : Scan Char := do
  match ← Scan.one fun c => isPrintable c && c != '"' with
  | '\\' => escape
  | c => return c

theorem run_basicPart {c : Char} {text : List Char} (shown : Shown false c text) :
    basicPart.run (text ++ rest) = some (c, rest) := by
  cases shown with
  | plain printable mark other =>
      have fits : (isPrintable c && c != '"') = true := by simp [printable, mark]
      rw [List.singleton_append, basicPart, run_bind (run_one fits)]
      split
      next => exact absurd rfl other
      next => rfl
  | line several => cases several
  | escaped e more solid read => exact read rest

theorem repeats_basicPart (cs : List Char) (run : Nat) :
    Repeats basicPart (escaped false 0 run cs ++ '"' :: rest) cs ('"' :: rest) := by
  -- By induction on the text: every quotation mark in it is escaped.
  induction cs generalizing run with
  | nil => exact .stop rfl
  | cons c cs ih =>
      have step {text : List Char} (shown : Shown false c text) :
          Repeats basicPart (text ++ escaped false 0 0 cs ++ '"' :: rest) (c :: cs)
            ('"' :: rest) := by
        rw [List.append_assoc]
        refine .more (run_basicPart shown) ?_ (ih 0)
        cases shown <;> simp only [List.cons_append, List.nil_append, List.length_cons,
          List.length_append] <;> omega
      by_cases mark : c = '"'
      · subst mark
        exact step (shown_mark false)
      · rw [escaped, if_neg mark]
        exact step (shown_escapedChar false mark)

theorem run_basicString (cs : List Char) :
    basicString.run ('"' :: (escaped false 0 0 cs ++ '"' :: rest)) =
      some (String.ofList cs, rest) := by
  have inside : (Scan.many basicPart).run (escaped false 0 0 cs ++ '"' :: rest) =
      some (cs, '"' :: rest) := (repeats_basicPart cs 0).run_many
  change (Scan.char '"' >>= fun _ => Scan.many basicPart >>= fun chars =>
    Scan.char '"' >>= fun _ => pure (String.ofList chars)).run _ = _
  rw [run_bind (run_char '"'), run_bind inside, run_bind (run_char '"')]
  rfl

theorem run_literalString {cs : List Char} (all : ∀ c ∈ cs, isPrintable c = true ∧ c ≠ '\'') :
    literalString.run ('\'' :: (cs ++ '\'' :: rest)) = some (String.ofList cs, rest) := by
  have found : (cs ++ '\'' :: rest).takeWhile (fun c => isPrintable c && c != '\'') = cs := by
    apply Stops.takeWhile_append (stops_cons.mpr (by decide))
    intro c member
    simp [all c member]
  rw [literalString, run_bind (run_char '\''), run_bind run_get]
  simp only [found, List.drop_left]
  change (Scan.char '\'' >>= fun _ => pure (String.ofList cs)).run ('\'' :: rest) = _
  rw [run_bind (run_char '\'')]
  rfl

/-! ## Strings of several lines -/

def basicSpecial : Scan (List Char) := continued <|> do
  Scan.char '\\'
  return [← escape]

def literalSpecial : Scan (List Char) := do
  Scan.char '\\'
  return ['\\']

theorem run_newline_none (stops : Stops (fun c => c == '\n' || c == '\r') rest) :
    newline.run rest = none := by
  rw [newline, run_bind run_get]
  split
  next => simp at stops
  next => simp at stops
  next => rfl

/-- A text in which some characters stand as others, before the marks that close it: each piece of
it is read as a character, and of `mark` no three stand in a row, `run` having passed. -/
inductive Spelled (mark : Char) (special : Scan (List Char)) : Nat → List Char → List Char → Prop
  | nil {run : Nat} : Spelled mark special run [] []
  | mark {run : Nat} {cs text : List Char} (few : run < 2)
      (more : Spelled mark special (run + 1) cs text) :
      Spelled mark special run (mark :: cs) (mark :: text)
  | piece {run : Nat} {c d : Char} {cs piece text : List Char} (other : d ≠ mark)
      (read : ∀ rest, (multilinePart mark special).run (d :: piece ++ rest) = some ([c], rest))
      (more : Spelled mark special 0 cs text) :
      Spelled mark special run (c :: cs) (d :: piece ++ text)

section Tripled

variable {mark : Char} {special : Scan (List Char)} {run : Nat} {cs text : List Char}

theorem Spelled.marks (spelled : Spelled mark special run cs text) (passed : run ≤ 2) :
    (∃ k, k + run ≤ 2 ∧ cs = List.replicate k mark ∧ text = List.replicate k mark) ∨
      ∃ k d more, k + run ≤ 2 ∧ text = List.replicate k mark ++ d :: more ∧ d ≠ mark := by
  induction spelled with
  | nil => exact .inl ⟨0, by omega, rfl, rfl⟩
  | mark few more ih =>
      rcases ih few with ⟨k, bound, rfl, rfl⟩ | ⟨k, d, more, bound, rfl, other⟩
      · exact .inl ⟨k + 1, by omega, rfl, rfl⟩
      · exact .inr ⟨k + 1, d, _, by omega, rfl, other⟩
  | piece other read more ih => exact .inr ⟨0, _, _, by omega, rfl, other⟩

theorem run_multilinePart {c : Char} (inner : c ≠ '\n' ∧ c ≠ '\r') :
    (multilinePart mark special).run (c :: rest) =
      if [mark, mark, mark].isPrefixOf (c :: rest) then none
      else if c = '\\' then special.run (c :: rest)
      else if isPrintable c then some ([c], rest)
      else none := by
  rw [multilinePart, run_bind run_get]
  split
  next same => exact absurd (List.cons.inj same).1 inner.1
  next same => exact absurd (List.cons.inj same).1 inner.2
  next same =>
    cases same
    split
    · rfl
    split
    · rfl
    split
    · rfl
    · rfl
  next same => cases same

/-- A mark in front of other marks closes the string if there are three of them. -/
theorem isPrefixOf_marks {k : Nat} {d : Char} (few : k ≤ 2) (other : d ≠ mark) :
    [mark, mark, mark].isPrefixOf (List.replicate k mark ++ d :: rest) = false := by
  have differ : (mark == d) = false := beq_eq_false_iff_ne.mpr (Ne.symm other)
  match k with
  | 0 | 1 | 2 => simp [List.replicate, List.isPrefixOf, differ]

theorem marks_append_closing (k : Nat) :
    List.replicate k mark ++ mark :: mark :: mark :: rest =
      mark :: mark :: mark :: (List.replicate k mark ++ rest) := by
  calc List.replicate k mark ++ mark :: mark :: mark :: rest
    _ = List.replicate k mark ++ (List.replicate 3 mark ++ rest) := rfl
    _ = List.replicate 3 mark ++ (List.replicate k mark ++ rest) := by
      rw [← List.append_assoc, List.replicate_append_replicate, Nat.add_comm,
        ← List.replicate_append_replicate, List.append_assoc]

theorem run_multilinePart_closing (inner : mark ≠ '\n' ∧ mark ≠ '\r') (k : Nat) :
    (multilinePart mark special).run (List.replicate k mark ++ mark :: mark :: mark :: rest) =
      none := by
  rw [marks_append_closing, run_multilinePart inner]
  exact if_pos (by simp)

theorem Spelled.repeats (inner : isPrintable mark = true ∧ mark ≠ '\\')
    (spelled : Spelled mark special run cs text) (passed : run ≤ 2) :
    ∃ parts left, left ≤ 2 ∧
      Repeats (multilinePart mark special) (text ++ mark :: mark :: mark :: rest) parts
        (List.replicate left mark ++ mark :: mark :: mark :: rest) ∧
      parts.flatten ++ List.replicate left mark = cs := by
  -- By induction on the text. The marks at its end are left to be read with those that close it.
  have solid : mark ≠ '\n' ∧ mark ≠ '\r' := by
    constructor
    all_goals
      rintro rfl
      exact absurd inner.1 (by decide)
  induction spelled with
  | nil => exact ⟨[], 0, by omega, .stop (run_multilinePart_closing solid 0), rfl⟩
  | @mark run cs text few more ih =>
      rcases more.marks few with ⟨k, bound, rfl, rfl⟩ | ⟨k, d, rest', bound, rfl, other⟩
      · exact ⟨[], k + 1, by omega, .stop (run_multilinePart_closing solid (k + 1)), rfl⟩
      · obtain ⟨parts, left, bound', others, same⟩ := ih few
        have open_ : [mark, mark, mark].isPrefixOf (mark :: (List.replicate k mark ++ d :: rest' ++
            mark :: mark :: mark :: rest)) = false := by
          rw [List.append_assoc]
          exact isPrefixOf_marks (k := k + 1) (by omega) other
        have read : (multilinePart mark special).run (mark :: (List.replicate k mark ++ d :: rest' ++
            mark :: mark :: mark :: rest)) = some ([mark], List.replicate k mark ++ d :: rest' ++
              mark :: mark :: mark :: rest) := by
          rw [run_multilinePart solid, if_neg (by rw [open_]; exact Bool.false_ne_true),
            if_neg inner.2, if_pos inner.1]
        exact ⟨[mark] :: parts, left, bound', .more read (Nat.lt_succ_self _) others,
          congrArg (mark :: ·) same⟩
  | @piece run c d cs piece text other read more ih =>
      obtain ⟨parts, left, bound, others, same⟩ := ih (Nat.zero_le 2)
      have first := read (text ++ mark :: mark :: mark :: rest)
      rw [← List.append_assoc] at first
      refine ⟨[c] :: parts, left, bound, .more first ?_ others, congrArg (c :: ·) same⟩
      simp only [List.cons_append, List.length_cons, List.length_append]
      omega

theorem run_closing {k : Nat} (few : k ≤ 2) (stops : Stops (· == mark) rest) :
    (closing mark).run (List.replicate k mark ++ mark :: mark :: mark :: rest) =
      some (List.replicate k mark, rest) := by
  have three (rest : List Char) : (Scan.word (String.ofList [mark, mark, mark])).run
      (mark :: mark :: mark :: rest) = some ((), rest) := by
    have read := run_word (String.ofList [mark, mark, mark]) rest
    rwa [String.toList_ofList] at read
  rw [marks_append_closing, closing, run_bind (three _)]
  match k with
  | 0 =>
      rw [List.replicate_zero, List.nil_append, run_bind (run_accept stops)]
      rfl
  | 1 =>
      rw [List.replicate_one, List.singleton_append, run_bind (run_accept_self mark)]
      simp only [if_true]
      rw [run_bind (run_accept stops)]
      rfl
  | 2 =>
      change StateT.run _ (mark :: mark :: rest) = _
      rw [run_bind (run_accept_self mark)]
      simp only [if_true]
      rw [run_bind (run_accept_self mark)]
      rfl

theorem run_multiline (inner : isPrintable mark = true ∧ mark ≠ '\\')
    (spelled : Spelled mark special 0 cs text) (stops : Stops (· == mark) rest)
    (start : ¬ cs.contains '\n' →
      Stops (fun c => c == '\n' || c == '\r') (text ++ mark :: mark :: mark :: rest)) :
    (multiline mark special).run (enclosed (tripled mark) cs text ++ rest) =
      some (String.ofList cs, rest) := by
  obtain ⟨parts, left, few, repeats, whole⟩ := spelled.repeats inner (Nat.zero_le 2)
  have opened : (Scan.word (String.ofList [mark, mark, mark])).run
      (enclosed (tripled mark) cs text ++ rest) =
        some ((), (if cs.contains '\n' then ['\n'] else []) ++
          (text ++ mark :: mark :: mark :: rest)) := by
    have read := run_word (String.ofList [mark, mark, mark])
      ((if cs.contains '\n' then ['\n'] else []) ++ (text ++ mark :: mark :: mark :: rest))
    rw [String.toList_ofList] at read
    simp only [enclosed, tripled, List.append_assoc]
    exact read
  have lined : ∃ found, (Scan.optional newline).run
      ((if cs.contains '\n' then ['\n'] else []) ++ (text ++ mark :: mark :: mark :: rest)) =
        some (found, text ++ mark :: mark :: mark :: rest) := by
    by_cases several : cs.contains '\n'
    · rw [if_pos several]
      exact ⟨_, run_optional rfl⟩
    · rw [if_neg several]
      exact ⟨_, run_optional_none (run_newline_none (start several))⟩
  obtain ⟨found, lined⟩ := lined
  rw [multiline, run_bind opened, run_bind (run_discard lined), run_bind repeats.run_many,
    run_bind (run_closing few stops), whole]
  rfl

end Tripled

/-! ### With escapes -/

theorem run_continued_none {e : Char} (solid : isGap e = false ∧ e ≠ '\n' ∧ e ≠ '\r') :
    continued.run ('\\' :: e :: rest) = none := by
  have stops : Stops isGap (e :: rest) := stops_cons.mpr solid.1
  have ends : Stops (fun c => c == '\n' || c == '\r') (e :: rest) :=
    stops_cons.mpr (by simp [solid.2.1, solid.2.2])
  rw [continued, run_bind (run_char '\\'), gap, run_bind (run_skip_of_stops stops),
    run_bind_none (run_newline_none ends)]

theorem run_basicSpecial {c e : Char} {more : List Char}
    (solid : isGap e = false ∧ e ≠ '\n' ∧ e ≠ '\r')
    (read : escape.run (e :: more ++ rest) = some (c, rest)) :
    basicSpecial.run ('\\' :: e :: more ++ rest) = some ([c], rest) := by
  rw [basicSpecial, List.cons_append, List.cons_append,
    run_orElse_of_none (run_continued_none solid), run_bind (run_char '\\'), ← List.cons_append,
    run_bind read]
  rfl

theorem Shown.piece {c : Char} {piece : List Char} (shown : Shown true c piece) :
    ∃ d more, piece = d :: more ∧ d ≠ '"' ∧
      ∀ rest, (multilinePart '"' basicSpecial).run (piece ++ rest) = some ([c], rest) := by
  cases shown with
  | plain printable mark other =>
      refine ⟨c, [], rfl, mark, fun rest => ?_⟩
      have solid : c ≠ '\n' ∧ c ≠ '\r' := by
        constructor
        all_goals
          rintro rfl
          exact absurd printable (by decide)
      have open_ : ['"', '"', '"'].isPrefixOf (c :: rest) = false := by
        simp [List.isPrefixOf, Ne.symm mark]
      rw [List.singleton_append, run_multilinePart solid, open_, if_neg Bool.false_ne_true,
        if_neg other, if_pos printable]
  | line several same =>
      subst same
      exact ⟨'\n', [], rfl, by decide, fun rest => rfl⟩
  | escaped e more solid read =>
      refine ⟨'\\', e :: more, rfl, by decide, fun rest => ?_⟩
      rw [List.cons_append, List.cons_append, run_multilinePart (by decide), if_neg, if_pos rfl]
      · exact run_basicSpecial solid (read rest)
      · simp [List.isPrefixOf]

theorem spelled_escaped (cs : List Char) {run : Nat} (passed : run ≤ 2) :
    Spelled '"' basicSpecial run cs (escaped true 2 run cs) := by
  induction cs generalizing run with
  | nil => exact .nil
  | cons c cs ih =>
      have step {piece : List Char} (shown : Shown true c piece) :
          Spelled '"' basicSpecial run (c :: cs) (piece ++ escaped true 2 0 cs) := by
        obtain ⟨d, more, rfl, other, read⟩ := shown.piece
        exact .piece other read (ih (Nat.zero_le 2))
      by_cases mark : c = '"'
      · subst mark
        rw [escaped, if_pos rfl]
        split
        next few => exact .mark few (ih few)
        next => exact step (shown_mark true)
      · rw [escaped, if_neg mark]
        exact step (shown_escapedChar true mark)

theorem stops_escaped {cs : List Char} (single : ¬ cs.contains '\n') :
    Stops (fun c => c == '\n' || c == '\r') (escaped true 2 0 cs ++ '"' :: rest) := by
  cases cs with
  | nil => exact stops_cons.mpr (by decide)
  | cons c cs =>
      by_cases mark : c = '"'
      · subst mark
        exact stops_cons.mpr (by decide)
      · have inner : c ≠ '\n' := by
          rintro rfl
          simp at single
        rw [escaped, if_neg mark]
        generalize shape : escapedChar true c = text
        have shown := shown_escapedChar true mark
        rw [shape] at shown
        cases shown with
        | plain printable =>
            have solid : c ≠ '\r' := by
              rintro rfl
              exact absurd printable (by decide)
            exact stops_cons.mpr (by simp [inner, solid])
        | line several same => exact absurd same inner
        | escaped => exact stops_cons.mpr (by decide)

theorem run_multilineBasic (cs : List Char) (stops : Stops (· == '"') rest) :
    multilineBasic.run (enclosed (tripled '"') cs (escaped true 2 0 cs) ++ rest) =
      some (String.ofList cs, rest) :=
  run_multiline (by decide) (spelled_escaped cs (Nat.zero_le 2)) stops stops_escaped

/-! ### Without escapes -/

section Literal

variable {mark : Char} {cs : List Char}

/-- The run that a character ends, and the longest so far. -/
def counted (mark : Char) (state : Nat × Nat) (c : Char) : Nat × Nat :=
  let run := if c = mark then state.1 + 1 else 0
  (run, max run state.2)

theorem le_longest (mark : Char) (cs : List Char) (state : Nat × Nat) :
    state.2 ≤ (cs.foldl (counted mark) state).2 := by
  induction cs generalizing state with
  | nil => exact Nat.le_refl _
  | cons c cs ih => exact Nat.le_trans (Nat.le_max_right _ _) (ih (counted mark state c))

theorem run_lt_longest (mark : Char) (cs : List Char) (state : Nat × Nat) :
    state.1 < ((mark :: cs).foldl (counted mark) state).2 := by
  have one : state.1 + 1 ≤ (counted mark state mark).2 := by
    simp only [counted, if_true]
    exact Nat.le_max_left _ _
  exact Nat.lt_of_succ_le (Nat.le_trans one (le_longest mark cs _))

theorem not_mem_of_longest {state : Nat × Nat} (never : (cs.foldl (counted mark) state).2 = 0) :
    mark ∉ cs := by
  induction cs generalizing state with
  | nil => exact List.not_mem_nil
  | cons c cs ih =>
      intro member
      rcases List.mem_cons.mp member with rfl | later
      · exact absurd (never ▸ run_lt_longest mark cs state) (Nat.not_lt_zero _)
      · exact ih never later

theorem spelled_literal {run longest : Nat} (raw : ∀ c ∈ cs, isControl c = false)
    (few : (cs.foldl (counted '\'') (run, longest)).2 ≤ 2) :
    Spelled '\'' literalSpecial run cs cs := by
  induction cs generalizing run longest with
  | nil => exact .nil
  | cons c cs ih =>
      rw [List.forall_mem_cons] at raw
      by_cases mark : c = '\''
      · subst mark
        have passed : run < 2 := Nat.lt_of_lt_of_le (run_lt_longest '\'' cs (run, longest)) few
        rw [List.foldl_cons, counted, if_pos rfl] at few
        exact .mark passed (ih raw.2 few)
      · rw [List.foldl_cons, counted, if_neg mark] at few
        refine @Spelled.piece _ _ _ c c cs [] cs mark (fun rest => ?_) (ih raw.2 few)
        by_cases line : c = '\n'
        · subst line
          rfl
        · have printable := isPrintable_of_not_isControl raw.1 line
          have solid : c ≠ '\r' := by
            rintro rfl
            exact absurd printable (by decide)
          have open_ : ['\'', '\'', '\''].isPrefixOf (c :: rest) = false := by
            simp [List.isPrefixOf, Ne.symm mark]
          rw [List.singleton_append, run_multilinePart ⟨line, solid⟩, open_,
            if_neg Bool.false_ne_true]
          split
          next back =>
            subst back
            rfl
          next => rfl

theorem run_multilineLiteral (raw : ∀ c ∈ cs, isControl c = false)
    (few : longestRun '\'' cs ≤ 2) (stops : Stops (· == '\'') rest) :
    multilineLiteral.run (enclosed (tripled '\'') cs cs ++ rest) = some (String.ofList cs, rest) := by
  refine run_multiline (by decide) (spelled_literal raw few) stops fun single => ?_
  cases cs with
  | nil => exact stops_cons.mpr (by decide)
  | cons c cs =>
      have inner : c ≠ '\n' := by
        rintro rfl
        simp at single
      have solid : c ≠ '\r' := by
        rintro rfl
        exact absurd (raw _ List.mem_cons_self) (by decide)
      exact stops_cons.mpr (by simp [inner, solid])

end Literal

/-! ## Every string -/

section Forms

variable {cs : List Char}

theorem run_multiline_none {mark : Char} (special : Scan (List Char)) {text : List Char}
    (other : [mark, mark, mark].isPrefixOf text = false) :
    (multiline mark special).run text = none := by
  have closed : (Scan.word (String.ofList [mark, mark, mark])).run text = none :=
    run_word_none (by rwa [String.toList_ofList])
  rw [multiline, run_bind_none closed]

theorem enclosed_single {mark content : List Char} (single : ¬ cs.contains '\n') :
    enclosed mark cs content = mark ++ content ++ mark := by
  rw [enclosed, if_neg single, List.append_nil]

theorem run_quotedString_basic (single : ¬ cs.contains '\n') (stops : Stops (· == '"') rest) :
    quotedString.run (enclosed ['"'] cs (escaped false 0 0 cs) ++ rest) =
      some (String.ofList cs, rest) := by
  have text : enclosed ['"'] cs (escaped false 0 0 cs) ++ rest =
      '"' :: (escaped false 0 0 cs ++ '"' :: rest) := by
    rw [enclosed_single single]
    simp only [List.cons_append, List.nil_append, List.append_assoc]
  have other : ['"', '"', '"'].isPrefixOf ('"' :: (escaped false 0 0 cs ++ '"' :: rest)) = false := by
    cases cs with
    | nil =>
        cases rest with
        | nil => rfl
        | cons d rest =>
            have different := stops_cons.mp stops
            simp [escaped, List.isPrefixOf, Ne.symm (beq_eq_false_iff_ne.mp different)]
    | cons c cs =>
        by_cases mark : c = '"'
        · subst mark
          rfl
        · rw [escaped, if_neg mark]
          have shown := shown_escapedChar false mark
          generalize escapedChar false c = piece at shown
          cases shown with
          | plain printable mark other => simp [List.isPrefixOf, Ne.symm mark]
          | line several => cases several
          | escaped => simp [List.isPrefixOf]
  have first : multilineBasic.run ('"' :: (escaped false 0 0 cs ++ '"' :: rest)) = none :=
    run_multiline_none _ other
  rw [text, quotedString, run_orElse_of_none first]
  exact run_orElse (run_basicString cs)

theorem run_basicString_none {c : Char} (mark : c ≠ '"') : basicString.run (c :: rest) = none := by
  rw [basicString, run_bind_none (run_char_none (stops_cons.mpr (beq_eq_false_iff_ne.mpr mark)))]

theorem run_quotedString_apostrophe :
    quotedString.run ('\'' :: rest) = (multilineLiteral <|> literalString).run ('\'' :: rest) := by
  have first : multilineBasic.run ('\'' :: rest) = none := run_multiline_none _ rfl
  rw [quotedString, run_orElse_of_none first, run_orElse_of_none (run_basicString_none (by decide))]

theorem run_quotedString_literal (single : ¬ cs.contains '\n') (nonempty : cs ≠ [])
    (raw : ∀ c ∈ cs, isControl c = false) (never : longestRun '\'' cs = 0) :
    quotedString.run (enclosed ['\''] cs cs ++ rest) = some (String.ofList cs, rest) := by
  have absent : '\'' ∉ cs := not_mem_of_longest never
  have all : ∀ c ∈ cs, isPrintable c = true ∧ c ≠ '\'' := by
    intro c member
    have inner : c ≠ '\n' := by
      rintro rfl
      exact single (List.contains_iff_mem.mpr member)
    refine ⟨isPrintable_of_not_isControl (raw c member) inner, ?_⟩
    rintro rfl
    exact absent member
  have text : enclosed ['\''] cs cs ++ rest = '\'' :: (cs ++ '\'' :: rest) := by
    rw [enclosed_single single]
    simp only [List.cons_append, List.nil_append, List.append_assoc]
  have other : ['\'', '\'', '\''].isPrefixOf ('\'' :: (cs ++ '\'' :: rest)) = false := by
    cases cs with
    | nil => exact absurd rfl nonempty
    | cons c cs => simp [List.isPrefixOf, Ne.symm (all c List.mem_cons_self).2]
  have first : multilineLiteral.run ('\'' :: (cs ++ '\'' :: rest)) = none :=
    run_multiline_none _ other
  rw [text, run_quotedString_apostrophe, run_orElse_of_none first, run_literalString all]

theorem run_quotedString_multilineLiteral (raw : ∀ c ∈ cs, isControl c = false)
    (few : longestRun '\'' cs ≤ 2) (stops : Stops (· == '\'') rest) :
    quotedString.run (enclosed (tripled '\'') cs cs ++ rest) = some (String.ofList cs, rest) := by
  have read := run_multilineLiteral raw few stops
  have front : ∃ text, enclosed (tripled '\'') cs cs ++ rest = '\'' :: text := ⟨_, rfl⟩
  obtain ⟨text, front⟩ := front
  rw [front] at read ⊢
  rw [run_quotedString_apostrophe, run_orElse read]

def Ends (rest : List Char) : Prop := Stops (· == '"') rest ∧ Stops (· == '\'') rest

theorem quotedString_quoted (cs : List Char) (ends : Ends rest) :
    quotedString.run (quoted cs ++ rest) = some (String.ofList cs, rest) := by
  have tripledBasic : quotedString.run (enclosed (tripled '"') cs (escaped true 2 0 cs) ++ rest) =
      some (String.ofList cs, rest) := run_orElse (run_multilineBasic cs ends.1)
  have raw : (!cs.any isControl) = true → ∀ c ∈ cs, isControl c = false := by
    simp only [Bool.not_eq_true', List.any_eq_false, Bool.not_eq_true]
    exact id
  unfold quoted
  dsimp only
  split
  next simple =>
    have single : ¬ cs.contains '\n' := by simpa using simple.2.2
    exact run_quotedString_basic single ends.1
  next notSimple =>
    split
    next plain =>
      have single : ¬ cs.contains '\n' := by simpa using plain.2.2
      have nonempty : cs ≠ [] := by
        rintro rfl
        exact notSimple (by decide)
      exact run_quotedString_literal single nonempty (raw plain.1) plain.2.1
    next =>
      split
      next => exact tripledBasic
      next =>
        split
        next plain => exact run_quotedString_multilineLiteral (raw plain.1) plain.2 ends.2
        next =>
          split
          next => exact tripledBasic
          next single => exact run_quotedString_basic single ends.1

end Forms

end SealedContainer.Toml
