import Mathlib.Data.List.Nodup
import SealedContainer.Proofs.Toml.Quoted

/-!
Documents of tables are read back. Main statement: `parse_tables`. A line is read by itself, whatever
follows it; tables that are written one after another become sections with their entries, and an
entry is new in its table.
-/

namespace SealedContainer.Toml

open Scan

variable {rest : List Char}

/-! ## Keys -/

def IsBareKey (key : List Char) : Prop := key ≠ [] ∧ ∀ c ∈ key, isBare c = true

instance (key : List Char) : Decidable (IsBareKey key) :=
  decidable_of_iff (key.isEmpty = false ∧ key.all isBare = true) (by simp [IsBareKey])

theorem stops_of_isBare {p : Char → Bool} {key : List Char} (bare : IsBareKey key)
    (other : ∀ c, p c = true → isBare c = false) (rest : List Char) : Stops p (key ++ rest) := by
  apply Stops.append bare.1
  intro c member
  rw [Bool.eq_false_iff]
  intro sign
  exact Bool.false_ne_true ((other c sign).symm.trans (bare.2 c member))

theorem isBare_of_beq {d : Char} (sign : isBare d = false) (c : Char) (same : (c == d) = true) :
    isBare c = false := by
  rw [beq_iff_eq.mp same, sign]

theorem isBare_of_isGap (c : Char) (blank : isGap c = true) : isBare c = false := by
  simp only [isGap, Bool.or_eq_true, beq_iff_eq] at blank
  rcases blank with rfl | rfl <;> rfl

theorem run_simpleKey {key : List Char} (bare : IsBareKey key) (stops : Stops isBare rest) :
    simpleKey.run (key ++ rest) = some (String.ofList key, rest) := by
  have basic : basicString.run (key ++ rest) = none := by
    rw [basicString, run_bind_none (run_char_none (stops_of_isBare bare (isBare_of_beq rfl) rest))]
  have literal : literalString.run (key ++ rest) = none := by
    rw [literalString, run_bind_none (run_char_none (stops_of_isBare bare (isBare_of_beq rfl) rest))]
  rw [simpleKey, run_orElse_of_none basic, run_orElse_of_none literal]
  exact run_map (run_some1 bare.1 bare.2 stops) _

def spacedKey : Scan String := do
  gap
  let key ← simpleKey
  gap
  return key

theorem run_spacedKey {key : List Char} (bare : IsBareKey key) (stops : Stops isBare rest) :
    spacedKey.run (key ++ rest) = some (String.ofList key, rest.dropWhile isGap) := by
  have before : gap.run (key ++ rest) = some ((), key ++ rest) :=
    run_skip_of_stops (stops_of_isBare bare isBare_of_isGap rest)
  rw [spacedKey, run_bind before, run_bind (run_simpleKey bare stops), gap, run_bind (run_skip rest)]
  rfl

/-- What may follow a path: nothing that could belong to one. -/
def isPathChar (c : Char) : Bool := isBare c || isGap c || c == '.'

section Path

variable {keys : List (List Char)} {blanks : List Char} (blank : ∀ c ∈ blanks, isGap c = true)
  (stops : Stops isPathChar rest)

include stops

theorem stops_of_isPathChar {p : Char → Bool} (part : ∀ c, p c = true → isPathChar c = true) :
    Stops p rest := by
  intro c first
  rw [Bool.eq_false_iff]
  exact fun sign => Bool.false_ne_true ((stops c first).symm.trans (part c sign))

include blank

theorem stops_behind_key (keys : List (List Char)) :
    Stops isBare (keys.flatMap ('.' :: ·) ++ blanks ++ rest) := by
  cases keys with
  | cons key keys => exact stops_cons.mpr rfl
  | nil =>
      cases blanks with
      | nil => exact stops_of_isPathChar stops fun c sign => by simp [isPathChar, sign]
      | cons c blanks =>
          apply stops_cons.mpr
          exact isBare_of_isGap c (blank c List.mem_cons_self)

theorem dropWhile_blanks : (blanks ++ rest).dropWhile isGap = rest := by
  rw [List.dropWhile_append_of_pos blank]
  exact Stops.dropWhile (stops_of_isPathChar stops fun c sign => by simp [isPathChar, sign])

theorem repeats_keys (bare : ∀ key ∈ keys, IsBareKey key) :
    Repeats (do Scan.char '.'; spacedKey)
      ((keys.flatMap ('.' :: ·) ++ blanks ++ rest).dropWhile isGap) (keys.map String.ofList) rest := by
  -- By induction on the keys: each has a dot in front, and the blanks stand behind the last one.
  induction keys with
  | nil =>
      have dot : Stops (· == '.') rest :=
        stops_of_isPathChar stops fun c sign => by simp [isPathChar, beq_iff_eq.mp sign]
      change Repeats _ ((blanks ++ rest).dropWhile isGap) [] rest
      rw [dropWhile_blanks blank stops]
      exact .stop (run_bind_none (run_char_none dot) _)
  | cons key keys ih =>
      rw [List.forall_mem_cons] at bare
      have behind := stops_behind_key blank stops keys
      have text : ((key :: keys).flatMap ('.' :: ·) ++ blanks ++ rest).dropWhile isGap =
          '.' :: (key ++ (keys.flatMap ('.' :: ·) ++ blanks ++ rest)) := by
        simp only [List.flatMap_cons, List.cons_append, List.append_assoc]
        exact List.dropWhile_cons_of_neg (by decide)
      have read : (do Scan.char '.'; spacedKey : Scan String).run
          ('.' :: (key ++ (keys.flatMap ('.' :: ·) ++ blanks ++ rest))) =
            some (String.ofList key,
              (keys.flatMap ('.' :: ·) ++ blanks ++ rest).dropWhile isGap) := by
        rw [run_bind (run_char '.'), run_spacedKey bare.1 behind]
      rw [text]
      refine .more read ?_ (ih bare.2)
      have dropped := (List.dropWhile_sublist isGap
        (l := keys.flatMap ('.' :: ·) ++ blanks ++ rest)).length_le
      rw [List.length_cons, List.length_append]
      omega

theorem run_path {first : List Char} {others : List (List Char)} {way : List String} {key : String}
    (bare : ∀ key ∈ first :: others, IsBareKey key)
    (split : (first :: others).map String.ofList = way ++ [key]) (short : way.length < maxDepth) :
    path.run (first ++ (others.flatMap ('.' :: ·) ++ blanks ++ rest)) = some (⟨way, key⟩, rest) := by
  rw [List.forall_mem_cons] at bare
  have keys : (Scan.separated (Scan.char '.') spacedKey).run
      (first ++ (others.flatMap ('.' :: ·) ++ blanks ++ rest)) = some (way ++ [key], rest) := by
    rw [separated, run_bind (run_spacedKey bare.1 (stops_behind_key blank stops others)),
      run_bind (repeats_keys blank stops bare.2).run_many, ← split]
    rfl
  have fits : (way ++ [key]).length ≤ maxDepth := by
    rw [List.length_append]
    exact short
  change (Scan.separated (Scan.char '.') spacedKey >>= _).run _ = _
  rw [run_bind keys]
  simp only [List.getLast?_concat, if_pos fits, List.dropLast_concat]
  rfl

end Path

/-! ## Values -/

structure ReadsValue (text : List Char) (found : Toml) : Prop where
  solid : Stops isGap text
  read : ∀ rest, scalar.run (text ++ '\n' :: rest) = some (found, '\n' :: rest)

theorem quoted_front (cs : List Char) : ∃ c more, quoted cs = c :: more ∧ (c = '"' ∨ c = '\'') := by
  unfold quoted
  dsimp only
  split
  · exact ⟨_, _, rfl, .inl rfl⟩
  split
  · exact ⟨_, _, rfl, .inr rfl⟩
  split
  · exact ⟨_, _, rfl, .inl rfl⟩
  split
  · exact ⟨_, _, rfl, .inr rfl⟩
  split
  · exact ⟨_, _, rfl, .inl rfl⟩
  · exact ⟨_, _, rfl, .inl rfl⟩

theorem readsValue_printString (s : String) : ReadsValue (printString s).toList (string s) := by
  obtain ⟨c, more, text, mark⟩ := quoted_front s.toList
  rw [printString, String.toList_ofList, text]
  constructor
  · apply stops_cons.mpr
    rcases mark with rfl | rfl <;> rfl
  · intro rest
    have ends : Ends ('\n' :: rest) := ⟨stops_cons.mpr rfl, stops_cons.mpr rfl⟩
    have read := quotedString_quoted s.toList ends
    rw [String.ofList_toList, text, List.cons_append] at read
    rw [List.cons_append, scalar, run_bind run_get]
    simp only [if_pos mark]
    rw [run_bind read]
    rfl

theorem readsValue_printBool (b : Bool) : ReadsValue (printBool b).toList (boolean b) := by
  cases b with
  | true =>
      have text : "true".toList = ['t', 'r', 'u', 'e'] := rfl
      refine ⟨stops_cons.mpr rfl, fun rest => ?_⟩
      have word := run_word "true" ('\n' :: rest)
      rw [text, List.cons_append] at word
      rw [printBool, if_pos rfl, text, List.cons_append, scalar, run_bind run_get]
      exact run_bind word _
  | false =>
      have text : "false".toList = ['f', 'a', 'l', 's', 'e'] := rfl
      refine ⟨stops_cons.mpr rfl, fun rest => ?_⟩
      have word := run_word "false" ('\n' :: rest)
      rw [text, List.cons_append] at word
      rw [printBool, if_neg Bool.false_ne_true, text, List.cons_append, scalar, run_bind run_get]
      exact run_bind word _

inductive Plain where
  | text (s : String)
  | flag (b : Bool)

def Plain.print : Plain → String
  | text s => printString s
  | flag b => printBool b

def Plain.value : Plain → Toml
  | text s => string s
  | flag b => boolean b

theorem Plain.readsValue (v : Plain) : ReadsValue v.print.toList v.value := by
  cases v with
  | text s => exact readsValue_printString s
  | flag b => exact readsValue_printBool b

theorem ReadsValue.run_value {text : List Char} {found : Toml} (reads : ReadsValue text found)
    (depth : Nat) : (value depth).run (text ++ '\n' :: rest) = some (found, '\n' :: rest) := by
  cases depth with
  | zero => exact reads.read rest
  | succ depth => exact run_orElse (reads.read rest)

/-! ## Lines -/

theorem run_lineEnd (rest : List Char) : lineEnd.run ('\n' :: rest) = some ((), rest) := rfl

theorem run_header {first : List Char} {others : List (List Char)} {way : List String} {key : String}
    (bare : ∀ key ∈ first :: others, IsBareKey key)
    (split : (first :: others).map String.ofList = way ++ [key]) (short : way.length < maxDepth)
    (rest : List Char) :
    header.run ('[' :: (first ++ (others.flatMap ('.' :: ·) ++ ']' :: '\n' :: rest))) =
      some (.header false ⟨way, key⟩, rest) := by
  have single : Stops (· == '[') (first ++ (others.flatMap ('.' :: ·) ++ ']' :: '\n' :: rest)) :=
    stops_of_isBare (bare first List.mem_cons_self) (isBare_of_beq rfl) _
  have blank : ∀ c ∈ ([] : List Char), isGap c = true := nofun
  have stops : Stops isPathChar (']' :: '\n' :: rest) := stops_cons.mpr rfl
  have found := run_path blank stops bare split short
  rw [List.append_nil] at found
  have closed : (Scan.word "]").run (']' :: '\n' :: rest) = some ((), '\n' :: rest) :=
    run_word "]" _
  rw [header, run_bind (run_char '['), run_bind (run_accept single), run_bind found]
  simp only [Bool.false_eq_true, if_false]
  rw [run_bind closed, run_bind (run_lineEnd rest)]
  rfl

theorem run_entryLine {key text : List Char} {value : Toml} (bare : IsBareKey key)
    (reads : ReadsValue text value) (rest : List Char) :
    entryLine.run (key ++ (' ' :: '=' :: ' ' :: (text ++ '\n' :: rest))) =
      some (.entry ⟨[], String.ofList key⟩ value, rest) := by
  have solid : Stops isGap (text ++ '\n' :: rest) := by
    have first := reads.solid
    cases text with
    | nil => exact stops_cons.mpr rfl
    | cons c text => exact stops_cons.mpr (stops_cons.mp first)
  have blank : ∀ c ∈ [' '], isGap c = true := by simp [isGap]
  have alone : ∀ k ∈ [key], IsBareKey k := by simpa using bare
  have stops : Stops isPathChar ('=' :: ' ' :: (text ++ '\n' :: rest)) := stops_cons.mpr rfl
  have split : [key].map String.ofList = [] ++ [String.ofList key] := rfl
  have found := run_path blank stops alone split (by decide)
  change path.run (key ++ (' ' :: '=' :: ' ' :: (text ++ '\n' :: rest))) = _ at found
  have spaced : gap.run (' ' :: (text ++ '\n' :: rest)) = some ((), text ++ '\n' :: rest) := by
    rw [gap, run_skip, List.dropWhile_cons_of_pos (by decide), solid.dropWhile]
  have read : (entry (Toml.value maxDepth)).run (key ++ (' ' :: '=' :: ' ' :: (text ++ '\n' :: rest))) =
      some ((⟨[], String.ofList key⟩, value), '\n' :: rest) := by
    rw [entry, run_bind found, run_bind (run_char '='), run_bind spaced,
      run_bind (reads.run_value maxDepth)]
    rfl
  rw [entryLine, run_bind read]
  simp only
  rw [run_bind (run_lineEnd rest)]
  rfl

/-- A line that is read as this, or as nothing, in front of anything but white space. -/
structure ReadsLine (text : List Char) (found : Option Line) : Prop where
  solid : ∃ c more, text = c :: more ∧ isGap c = false ∧ c ≠ orderMark
  read : ∀ rest, Stops isGap rest → line.run (text ++ rest) = some (found, rest)

theorem run_emptyLine_none (stops : Stops (fun c => c == '\n' || c == '\r' || c == '#') rest) :
    emptyLine.run rest = none := by
  have ends : newline.run rest = none := by
    apply run_newline_none
    intro c first
    have sign := stops c first
    simp only [Bool.or_eq_false_iff] at sign
    simp [sign.1]
  have mark : Stops (· == '#') rest := by
    intro c first
    have sign := stops c first
    simp only [Bool.or_eq_false_iff] at sign
    exact sign.2
  have remark : comment.run rest = none := by
    rw [comment, run_bind_none (run_char_none mark)]
  rw [emptyLine, run_orElse_of_none ends, run_bind_none remark]

theorem run_line {text : List Char} {found : Line}
    (stops : Stops (fun c => c == '\n' || c == '\r' || c == '#') (text ++ rest))
    (read : (some <$> header <|> some <$> entryLine : Scan (Option Line)).run (text ++ rest) =
      some (some found, rest))
    (solid : Stops isGap rest) : line.run (text ++ rest) = some (some found, rest) := by
  have empty : (do emptyLine; return none : Scan (Option Line)).run (text ++ rest) = none :=
    run_bind_none (run_emptyLine_none stops) _
  have said : ((do emptyLine; return none) <|> some <$> header <|> some <$> entryLine :
      Scan (Option Line)).run (text ++ rest) = some (some found, rest) := by
    rw [run_orElse_of_none empty, read]
  rw [line, run_bind said, gap, run_bind (run_skip_of_stops solid)]
  rfl

theorem readsLine_empty : ReadsLine ['\n'] none := by
  refine ⟨⟨_, _, rfl, rfl, by decide⟩, fun rest solid => ?_⟩
  have empty : ((do emptyLine; return none) <|> some <$> header <|> some <$> entryLine :
      Scan (Option Line)).run ('\n' :: rest) = some (none, rest) := run_orElse rfl
  rw [List.singleton_append, line, run_bind empty, gap, run_bind (run_skip_of_stops solid)]
  rfl

theorem readsLine_header {first : List Char} {others : List (List Char)} {way : List String}
    {key : String} (bare : ∀ key ∈ first :: others, IsBareKey key)
    (split : (first :: others).map String.ofList = way ++ [key]) (short : way.length < maxDepth) :
    ReadsLine ('[' :: (first ++ (others.flatMap ('.' :: ·) ++ [']', '\n'])))
      (some (.header false ⟨way, key⟩)) := by
  refine ⟨⟨_, _, rfl, rfl, by decide⟩, fun rest solid => run_line (stops_cons.mpr rfl) ?_ solid⟩
  have read := run_header bare split short rest
  simp only [List.cons_append, List.append_assoc, List.nil_append]
  exact run_orElse (run_map read some)

theorem readsLine_entry {key text : List Char} {found : Toml} (bare : IsBareKey key)
    (reads : ReadsValue text found) :
    ReadsLine (key ++ (' ' :: '=' :: ' ' :: (text ++ ['\n'])))
      (some (.entry ⟨[], String.ofList key⟩ found)) := by
  have behind (rest : List Char) {p : Char → Bool} (other : ∀ c, p c = true → isBare c = false) :
      Stops p (key ++ (' ' :: '=' :: ' ' :: (text ++ ['\n'])) ++ rest) := by
    rw [List.append_assoc]
    exact stops_of_isBare bare other _
  have sign (c : Char) (mark : (c == '\n' || c == '\r' || c == '#') = true) : isBare c = false := by
    simp only [Bool.or_eq_true, beq_iff_eq] at mark
    rcases mark with (rfl | rfl) | rfl <;> rfl
  constructor
  · cases key with
    | nil => exact absurd rfl bare.1
    | cons c key =>
        have first := bare.2 c List.mem_cons_self
        refine ⟨c, _, rfl, ?_, ?_⟩
        · exact Bool.eq_false_iff.mpr fun blank =>
            Bool.false_ne_true ((isBare_of_isGap c blank).symm.trans first)
        · rintro rfl
          exact Bool.false_ne_true first
  · intro rest solid
    refine run_line (behind rest sign) ?_ solid
    have closed : header.run (key ++ (' ' :: '=' :: ' ' :: (text ++ ['\n'])) ++ rest) = none := by
      rw [header, run_bind_none (run_char_none (behind rest (isBare_of_beq rfl)))]
    have read := run_entryLine bare reads rest
    rw [run_orElse_of_none (run_map_none closed some)]
    simp only [List.cons_append, List.append_assoc, List.nil_append]
    exact run_map read some

/-! ## Documents -/

theorem repeats_lines {lines : List (List Char × Option Line)}
    (reads : ∀ l ∈ lines, ReadsLine l.1 l.2) :
    Repeats line (lines.flatMap Prod.fst) (lines.map Prod.snd) [] := by
  -- By induction on the lines. Nothing follows the last one, and nothing is no line.
  induction lines with
  | nil => exact .stop rfl
  | cons l lines ih =>
      rw [List.forall_mem_cons] at reads
      have solid : Stops isGap (lines.flatMap Prod.fst) := by
        cases lines with
        | nil => exact stops_nil _
        | cons next lines =>
            obtain ⟨c, more, text, first, _⟩ := (reads.2 next List.mem_cons_self).solid
            rw [List.flatMap_cons, text]
            exact stops_cons.mpr first
      obtain ⟨c, more, text, _⟩ := reads.1.solid
      have shorter : (lines.flatMap Prod.fst).length < ((l :: lines).flatMap Prod.fst).length := by
        rw [List.flatMap_cons, text, List.cons_append, List.length_cons, List.length_append]
        omega
      exact .more (reads.1.read _ solid) shorter (ih reads.2)

theorem parse_lines {lines : List (List Char × Option Line)}
    (reads : ∀ l ∈ lines, ReadsLine l.1 l.2) {text : String}
    (whole : text.toList = lines.flatMap Prod.fst) :
    parse text = ofLines (lines.filterMap Prod.snd) := by
  have start : Stops (fun c => c == orderMark || isGap c) (lines.flatMap Prod.fst) := by
    cases lines with
    | nil => exact stops_nil _
    | cons l lines =>
        obtain ⟨c, more, text, first, other⟩ := (reads l List.mem_cons_self).solid
        rw [List.flatMap_cons, text]
        exact stops_cons.mpr (by simp [first, other])
  have unmarked : Stops (· == orderMark) (lines.flatMap Prod.fst) := fun c first =>
    (Bool.or_eq_false_iff.mp (start c first)).1
  have solid : Stops isGap (lines.flatMap Prod.fst) := fun c first =>
    (Bool.or_eq_false_iff.mp (start c first)).2
  have read : (do discard (Scan.accept orderMark); gap; Scan.many line : Scan _).run
      (lines.flatMap Prod.fst) = some (lines.map Prod.snd, []) := by
    rw [run_bind (run_discard (run_accept unmarked)), gap, run_bind (run_skip_of_stops solid),
      (repeats_lines reads).run_many]
  rw [parse, whole, whole_eq read, Option.bind_eq_bind, Option.bind_some, List.filterMap_map]
  rfl

/-! ## Tables -/

structure Written where
  header : String
  path : Path
  entries : List (String × Plain)

namespace Written

def text (t : Written) : String := printTable t.header (t.entries.map fun e => (e.1, e.2.print))

def found (t : Written) : Entries := t.entries.map fun e => (e.1, e.2.value)

def lines (t : Written) : List (List Char × Option Line) :=
  ('[' :: (t.header.toList ++ [']', '\n']), some (.header false t.path)) ::
    t.entries.map fun e => (e.1.toList ++ (' ' :: '=' :: ' ' :: (e.2.print.toList ++ ['\n'])),
      some (.entry ⟨[], e.1⟩ e.2.value))

/-- The header is read as the path that it stands for, and every key as it is. -/
structure Reads (t : Written) : Prop where
  header : ReadsLine ('[' :: (t.header.toList ++ [']', '\n'])) (some (.header false t.path))
  keys : ∀ key ∈ t.entries.map Prod.fst, IsBareKey key.toList

theorem keys_found (t : Written) : t.found.map Prod.fst = t.entries.map Prod.fst := by
  rw [found, List.map_map]
  rfl

theorem Reads.lines {t : Written} (reads : t.Reads) : ∀ l ∈ t.lines, ReadsLine l.1 l.2 := by
  intro l member
  rcases List.mem_cons.mp member with rfl | entry
  · exact reads.header
  · obtain ⟨e, there, rfl⟩ := List.mem_map.mp entry
    have read := readsLine_entry (reads.keys e.1 (List.mem_map_of_mem there)) e.2.readsValue
    rwa [String.ofList_toList] at read

theorem toList_text (t : Written) : t.text.toList = t.lines.flatMap Prod.fst := by
  have line (e : String × Plain) : (e.1 ++ " = " ++ e.2.print ++ "\n").toList =
      e.1.toList ++ (' ' :: '=' :: ' ' :: (e.2.print.toList ++ ['\n'])) := by
    simp only [String.toList_append, List.append_assoc]
    rfl
  have front : ("[" ++ t.header ++ "]\n").toList = '[' :: (t.header.toList ++ [']', '\n']) := by
    simp only [String.toList_append, List.append_assoc]
    rfl
  rw [text, printTable, String.toList_append, front, String.toList_join, lines, List.flatMap_cons,
    List.map_map, List.flatMap_map, List.flatMap_map]
  congr 2
  funext e
  exact line e

def allLines : List Written → List (List Char × Option Line)
  | [] => []
  | [t] => t.lines
  | t :: next :: more => t.lines ++ (['\n'], none) :: allLines (next :: more)

theorem toList_texts (tables : List Written) :
    ("\n".intercalate (tables.map text)).toList = (allLines tables).flatMap Prod.fst := by
  rw [String.toList_intercalate, List.map_map]
  induction tables with
  | nil => rfl
  | cons t more ih =>
      cases more with
      | nil =>
          rw [List.map_singleton, List.intercalate_singleton, allLines]
          exact toList_text t
      | cons next more =>
          have own : (String.toList ∘ text) t = t.lines.flatMap Prod.fst := toList_text t
          rw [List.map_cons, List.map_cons, List.intercalate_cons_cons, ← List.map_cons, ih, own,
            allLines, List.flatMap_append, List.append_assoc]
          rfl

theorem readsLine_of_mem_allLines {tables : List Written} (reads : ∀ t ∈ tables, t.Reads) :
    ∀ l ∈ allLines tables, ReadsLine l.1 l.2 := by
  induction tables with
  | nil => nofun
  | cons t more ih =>
      rw [List.forall_mem_cons] at reads
      cases more with
      | nil => exact reads.1.lines
      | cons next more =>
          intro l member
          rcases List.mem_append.mp member with here | behind
          · exact reads.1.lines l here
          · rcases List.mem_cons.mp behind with rfl | later
            · exact readsLine_empty
            · exact ih reads.2 l later

def toSection (t : Written) : Section :=
  ⟨false, t.path, t.found.map fun e => (⟨[], e.1⟩, e.2)⟩

theorem sections_lines (t : Written) {lines : List Line} {others : List Section}
    (behind : sections lines = ([], others)) :
    sections (t.lines.filterMap Prod.snd ++ lines) = ([], t.toSection :: others) := by
  have entries (es : List (String × Plain)) :
      sections ((es.map fun e => Line.entry ⟨[], e.1⟩ e.2.value) ++ lines) =
        (es.map fun e => (⟨[], e.1⟩, e.2.value), others) := by
    induction es with
    | nil => exact behind
    | cons e es ih =>
        rw [List.map_cons, List.cons_append, sections, ih]
        rfl
  have own : t.lines.filterMap Prod.snd =
      .header false t.path :: t.entries.map fun e => Line.entry ⟨[], e.1⟩ e.2.value := by
    have others : (t.entries.map fun e =>
        (e.1.toList ++ (' ' :: '=' :: ' ' :: (e.2.print.toList ++ ['\n'])),
          some (Line.entry ⟨[], e.1⟩ e.2.value))).filterMap Prod.snd =
        t.entries.map fun e => Line.entry ⟨[], e.1⟩ e.2.value := by
      rw [List.filterMap_map]
      exact congrFun List.filterMap_eq_map _
    exact congrArg (Line.header false t.path :: ·) others
  rw [own, List.cons_append, sections, entries, toSection, found, List.map_map]
  rfl

theorem sections_allLines (tables : List Written) :
    sections ((allLines tables).filterMap Prod.snd) = ([], tables.map toSection) := by
  induction tables with
  | nil => rfl
  | cons t more ih =>
      cases more with
      | nil =>
          have read : sections (t.lines.filterMap Prod.snd ++ []) = ([], [t.toSection]) :=
            t.sections_lines rfl
          rwa [List.append_nil] at read
      | cons next more =>
          rw [allLines, List.filterMap_append, List.filterMap_cons_none rfl]
          exact t.sections_lines ih

theorem parse_tables {tables : List Written} (reads : ∀ t ∈ tables, t.Reads) :
    parse ("\n".intercalate (tables.map text)) = (tables.map toSection).foldlM Section.add [] := by
  rw [parse_lines (readsLine_of_mem_allLines reads) (toList_texts tables), ofLines,
    sections_allLines]
  rfl

end Written

theorem insertAll_of_nodup {made : TableForm} {es added : Entries}
    (new : ((es ++ added).map Prod.fst).Nodup) :
    insertAll made es (added.map fun e => (⟨[], e.1⟩, e.2)) = some (es ++ added) := by
  induction added generalizing es with
  | nil => rw [List.append_nil]; rfl
  | cons e added ih =>
      have absent : es.any (·.1 = e.1) = false := by
        rw [List.any_eq_false]
        intro e' member same
        rw [List.map_append, List.map_cons, List.nodup_append] at new
        exact new.2.2 e'.1 (List.mem_map_of_mem member) e.1 List.mem_cons_self
          (of_decide_eq_true same)
      have behind : es ++ e :: added = es ++ [e] ++ added := by
        rw [List.append_assoc, List.singleton_append]
      rw [behind] at new ⊢
      rw [← ih new]
      simp only [insertAll, List.map_cons, List.foldlM_cons, insert, absent, Bool.false_eq_true,
        if_false, Option.bind_eq_bind, Option.bind_some]

theorem openTable_of_new {key : String} {es added : Entries} (new : key ∉ es.map Prod.fst)
    (distinct : (added.map Prod.fst).Nodup) :
    openTable key (added.map fun e => (⟨[], e.1⟩, e.2)) es =
      some (es ++ [(key, table .header added)]) := by
  have other : ∀ e ∈ es, e.1 ≠ key := by
    rintro e member rfl
    exact new (List.mem_map_of_mem member)
  have absent : es.lookup key = none := by
    rw [List.lookup_eq_none_iff]
    exact fun e member => by simpa using Ne.symm (other e member)
  have kept : es.filter (·.1 ≠ key) = es := by
    rw [List.filter_eq_self]
    exact fun e member => decide_eq_true (other e member)
  have inserted : insertAll .keyWay [] (added.map fun e => (⟨[], e.1⟩, e.2)) = some added :=
    insertAll_of_nodup distinct
  rw [openTable, absent]
  simp only [inserted, kept, Option.bind_eq_bind, Option.bind_some]
  rfl

namespace Written

variable {t : Written} {key : String} {es : Entries}

theorem add_of_new (here : t.path = ⟨[], key⟩) (new : key ∉ es.map Prod.fst)
    (distinct : (t.found.map Prod.fst).Nodup) :
    Section.add es t.toSection = some (es ++ [(key, table .header t.found)]) := by
  rw [Section.add, toSection, here]
  exact openTable_of_new new distinct

theorem add_within {step : String} {inner : Entries} (here : t.path = ⟨[step], key⟩)
    (there : es.lookup step = some (table .header inner)) (new : key ∉ inner.map Prod.fst)
    (distinct : (t.found.map Prod.fst).Nodup) :
    Section.add es t.toSection =
      some (es.replace step (table .header (inner ++ [(key, table .header t.found)]))) := by
  rw [Section.add, toSection, here]
  simp only [Bool.false_eq_true, if_false, atHeader, there, reduceCtorEq,
    openTable_of_new new distinct, Option.bind_eq_bind, Option.bind_some]
  rfl

end Written

end SealedContainer.Toml
