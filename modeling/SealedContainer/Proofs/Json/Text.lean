import SealedContainer.Json.Parser
import SealedContainer.Json
import SealedContainer.Proofs.Bytes

/-!
Records that are written as JSON are read back, whatever is in their strings. Main statements:
`reads_printText`, `read_printObject`. The text is read as its bytes, so what is written for one
character may be several letters, and each is read without regard to what follows.
-/

namespace SealedContainer.Json

/-! ## Letters -/

/-- The letters that a text is read as, one for each of its bytes. -/
def spelled (cs : List Char) : List Char := letters (cs.flatMap String.utf8EncodeChar)

theorem letters_ofString (cs : List Char) : letters (Bytes.ofString (String.ofList cs)) = spelled cs := by
  rw [Bytes.ofString_eq_flatMap, String.toList_ofList, spelled]

theorem spelled_nil : spelled [] = [] := rfl

theorem spelled_append (a b : List Char) : spelled (a ++ b) = spelled a ++ spelled b := by
  simp only [spelled, letters, List.flatMap_append, List.map_append]

theorem spelled_of_ascii {cs : List Char} (ascii : ∀ c ∈ cs, c.toNat < 128) : spelled cs = cs := by
  have read := Bytes.map_letter_ofString (s := String.ofList cs) (by rwa [String.toList_ofList])
  rwa [String.toList_ofList, ← letters, letters_ofString] at read

theorem spelled_cons {c : Char} (ascii : c.toNat < 128) (cs : List Char) :
    spelled (c :: cs) = c :: spelled cs := by
  have single : spelled [c] = [c] := spelled_of_ascii (by simpa using ascii)
  rw [← List.singleton_append, spelled_append, single, List.singleton_append]

/-! ## Strings -/

/-- Within a string these letters are read as these bytes, whatever follows. -/
def Writes (cs : List Char) (bytes : Bytes) : Prop :=
  ∃ parts : List Piece,
    (∀ rest, pieces (cs ++ rest) = (pieces rest).map fun (more, rest) => (parts ++ more, rest)) ∧
    ∀ more, joined (parts ++ more) = (joined more).map (bytes ++ ·)

theorem Writes.nil : Writes [] [] := by
  refine ⟨[], fun rest => ?_, fun more => ?_⟩
  · simp
  · simp

theorem Writes.append {a b : List Char} {x y : Bytes} (first : Writes a x) (second : Writes b y) :
    Writes (a ++ b) (x ++ y) := by
  obtain ⟨parts, read, join⟩ := first
  obtain ⟨parts', read', join'⟩ := second
  refine ⟨parts ++ parts', fun rest => ?_, fun more => ?_⟩
  · rw [List.append_assoc, read, read', Option.map_map]
    simp only [Function.comp_def, List.append_assoc]
  · rw [List.append_assoc, join, join', Option.map_map]
    simp only [Function.comp_def, List.append_assoc]

theorem bind_cons (part : Piece) (found : Option (List Piece × List Char)) :
    (do
      let (more, rest) ← found
      return (part :: more, rest)) = found.map fun (more, rest) => (part :: more, rest) := by
  cases found with
  | none => rfl
  | some found => rfl

theorem pieces_of_plain {c : Char} (visible : ¬ c.val < 0x20) (quote : c ≠ '"') (escape : c ≠ '\\')
    (rest : List Char) :
    pieces (c :: rest) = (pieces rest).map fun (more, rest) => (.ofLetter c :: more, rest) := by
  rw [pieces.eq_def]
  split
  next same => exact absurd (List.cons.inj same).1 quote
  next same => exact absurd (List.cons.inj same).1 escape
  next same => exact absurd (List.cons.inj same).1 escape
  next same =>
    obtain ⟨rfl, rfl⟩ := List.cons.inj same
    rw [if_neg (not_or.mpr ⟨visible, escape⟩)]
    exact bind_cons _ _
  next none => cases none

theorem Writes.letter {b : UInt8} (visible : 0x20 ≤ b.toNat) (quote : b.toNat ≠ 34)
    (escape : b.toNat ≠ 92) : Writes [Char.ofNat b.toNat] [b] := by
  have number := Bytes.toNat_letter b
  have other (d : Char) (differs : b.toNat ≠ d.toNat) : Char.ofNat b.toNat ≠ d := by
    rintro rfl
    exact differs number.symm
  have whole : Piece.ofLetter (Char.ofNat b.toNat) = .byte b := by
    rw [Piece.ofLetter, number, UInt8.ofNat_toNat]
  have low : ¬ (Char.ofNat b.toNat).val < 0x20 := by
    intro below
    have numbers : (Char.ofNat b.toNat).toNat < 0x20 := UInt32.lt_iff_toNat_lt.mp below
    omega
  refine ⟨[.byte b], fun rest => ?_, fun more => ?_⟩
  · rw [List.singleton_append, pieces_of_plain low (other _ quote) (other _ escape), whole]
    rfl
  · rfl

theorem Writes.short {e c : Char} (short : shortEscape? e = some c) (other : e ≠ 'u') :
    Writes ['\\', e] [UInt8.ofNat c.toNat] := by
  refine ⟨[.ofLetter c], fun rest => ?_, fun more => rfl⟩
  rw [List.cons_append, List.singleton_append, pieces.eq_def]
  split
  next same => exact absurd (List.cons.inj same).1 (by decide)
  next same => exact absurd (List.cons.inj (List.cons.inj same).2).1 other
  next same =>
    obtain ⟨rfl, rfl⟩ := List.cons.inj (List.cons.inj same).2
    rw [short]
    exact bind_cons _ _
  next long same =>
    obtain ⟨rfl, rfl⟩ := List.cons.inj same
    exact absurd rfl (long _ _ rfl)
  next none => cases none

theorem Writes.unit {a b c d : Char} {n : Nat} (read : hexNumber? [a, b, c, d] = some n)
    (small : n < 0xD800) : Writes ['\\', 'u', a, b, c, d] (written n) := by
  have high : isHighUnit n = false := by
    simp only [isHighUnit, Bool.and_eq_false_iff, decide_eq_false_iff_not]
    omega
  have low : isLowUnit n = false := by
    simp only [isLowUnit, Bool.and_eq_false_iff, decide_eq_false_iff_not]
    omega
  refine ⟨[.unit n], fun rest => ?_, fun more => ?_⟩
  · simp only [List.cons_append, List.nil_append, pieces, read]
    exact bind_cons _ _
  · rw [List.singleton_append, joined.eq_def]
    simp only [high, low, Bool.false_eq_true, if_false]
    rfl

theorem Writes.bytes {bytes : Bytes}
    (plain : ∀ b ∈ bytes, 0x20 ≤ b.toNat ∧ b.toNat ≠ 34 ∧ b.toNat ≠ 92) :
    Writes (letters bytes) bytes := by
  induction bytes with
  | nil => exact .nil
  | cons b rest ih =>
      obtain ⟨visible, quote, escape⟩ := plain b List.mem_cons_self
      exact (letter visible quote escape).append
        (ih fun b member => plain b (List.mem_cons_of_mem _ member))

theorem Writes.plain {c : Char} (visible : ¬ c.val < 0x20) (quote : c ≠ '"') (escape : c ≠ '\\') :
    Writes (letters (String.utf8EncodeChar c)) (String.utf8EncodeChar c) := by
  apply Writes.bytes
  intro b member
  by_cases ascii : c.toNat < 128
  · obtain ⟨b', single, same⟩ := Bytes.utf8EncodeChar_of_ascii ascii
    rw [single, List.mem_singleton] at member
    subst member
    rw [same]
    refine ⟨Nat.le_of_not_lt fun below => visible (UInt32.lt_iff_toNat_lt.mpr below), ?_, ?_⟩
    · exact fun same => quote (Char.toNat_inj.mp same)
    · exact fun same => escape (Char.toNat_inj.mp same)
  · have high := Bytes.le_of_mem_utf8EncodeChar (Nat.le_of_not_lt ascii) member
    omega

theorem Writes.short_escape {c e : Char} (read : shortEscape? e = some c) (other : e ≠ 'u')
    (ascii : c.toNat < 128 ∧ e.toNat < 128) :
    Writes (spelled ['\\', e]) (String.utf8EncodeChar c) := by
  obtain ⟨b, single, same⟩ := Bytes.utf8EncodeChar_of_ascii ascii.1
  have standing : spelled ['\\', e] = ['\\', e] :=
    spelled_of_ascii (by simpa using ascii.2)
  have byte : UInt8.ofNat c.toNat = b := by rw [← same, UInt8.ofNat_toNat]
  rw [standing, single, ← byte]
  exact short read other

theorem hexNumber?_hexDigits : ∀ n < 32, hexNumber? (hexDigits 4 n) = some n := by
  decide +kernel

theorem hexDigits_ascii (width n : Nat) : ∀ c ∈ hexDigits width n, c.toNat < 128 := by
  have digit : ∀ d < 16, (Nat.digitChar d).toNat < 128 := by decide
  intro c member
  obtain ⟨i, -, rfl⟩ := List.mem_map.mp member
  exact digit _ (Nat.mod_lt _ (by decide))

theorem written_toNat (c : Char) : written c.toNat = String.utf8EncodeChar c := by
  have single : c.toString.toList = [c] := String.toList_singleton c
  rw [written, Char.ofNat_toNat, Bytes.ofString_eq_flatMap, single, List.flatMap_singleton]

theorem Writes.long_escape {c : Char} (control : c.toNat < 32) :
    Writes (spelled (['\\', 'u'] ++ hexDigits 4 c.toNat)) (String.utf8EncodeChar c) := by
  have start : spelled ['\\', 'u'] = ['\\', 'u'] := spelled_of_ascii (by simp)
  rw [spelled_append, start, spelled_of_ascii (hexDigits_ascii 4 _), ← written_toNat]
  exact unit (hexNumber?_hexDigits _ control) (Nat.lt_trans control (by decide))

theorem Writes.of_escaped (c : Char) : Writes (spelled (escaped c)) (String.utf8EncodeChar c) := by
  unfold escaped
  split
  next special =>
    rcases special with rfl | rfl
    · exact short_escape rfl (by decide) (by decide)
    · exact short_escape rfl (by decide) (by decide)
  next ordinary =>
    split
    next same => exact same ▸ short_escape rfl (by decide) (by decide)
    split
    next same => exact same ▸ short_escape rfl (by decide) (by decide)
    split
    next same => exact same ▸ short_escape rfl (by decide) (by decide)
    split
    next same => exact same ▸ short_escape rfl (by decide) (by decide)
    split
    next same => exact same ▸ short_escape rfl (by decide) (by decide)
    split
    next control => exact long_escape (UInt32.lt_iff_toNat_lt.mp control)
    next visible =>
      obtain ⟨quote, escape⟩ := not_or.mp ordinary
      have single : spelled [c] = letters (String.utf8EncodeChar c) := by
        rw [spelled, List.flatMap_singleton]
      rw [single]
      exact plain visible quote escape

theorem Writes.of_text (cs : List Char) :
    Writes (spelled (cs.flatMap escaped)) (cs.flatMap String.utf8EncodeChar) := by
  -- By induction on the text, a character at a time.
  induction cs with
  | nil => exact .nil
  | cons c rest ih =>
      rw [List.flatMap_cons, List.flatMap_cons, spelled_append]
      exact (of_escaped c).append ih

/-! ## Values -/

theorem dropWhile_isGap {c : Char} (solid : isGap c = false) (cs : List Char) :
    (c :: cs).dropWhile isGap = c :: cs :=
  List.dropWhile_cons_of_neg (Bool.not_eq_true _ ▸ solid)

/-- Whatever follows the text of a value, the text is read as the value. -/
def Reads (text : List Char) (found : Json) : Prop :=
  ∀ depth rest, value (depth + 1) (spelled text ++ rest) = (found, some rest)

theorem spelled_printText (s : String) :
    spelled (printText s) = '"' :: (spelled (s.toList.flatMap escaped) ++ ['"']) := by
  rw [printText, List.cons_append, spelled_cons (by decide), spelled_append,
    spelled_cons (by decide), spelled_nil]

theorem reads_printText (s : String) : Reads (printText s) (string (some s)) := by
  intro depth rest
  obtain ⟨parts, read, join⟩ := Writes.of_text s.toList
  have closed : pieces (spelled (s.toList.flatMap escaped) ++ '"' :: rest) = some (parts, rest) := by
    rw [read, pieces, Option.map_some]
    simp only [List.append_nil]
  have whole : (joined parts).bind Bytes.toString? = some s := by
    have joint := join []
    rw [List.append_nil, ← Bytes.ofString_eq_flatMap] at joint
    rw [joint, joined, Option.map_some, List.append_nil, Option.bind_some, Bytes.toString?_ofString]
  have quote : isGap '"' = false := rfl
  simp only [spelled_printText, List.cons_append, List.append_assoc, List.nil_append, value,
    dropWhile_isGap quote, closed, whole]

theorem reads_printNull : Reads printNull null := by
  intro depth rest
  have letters : spelled printNull = printNull := spelled_of_ascii (by simp [printNull])
  rw [letters]
  rfl

theorem reads_printBool (b : Bool) : Reads (printBool b) (bool b) := by
  intro depth rest
  have letters : spelled (printBool b) = printBool b := by
    apply spelled_of_ascii
    cases b <;> simp [printBool]
  rw [letters]
  cases b <;> rfl

/-! ## Objects -/

structure Field where
  name : String
  text : List Char
  found : Json
  reads : Reads text found

namespace Field

def ofText (name text : String) : Field :=
  ⟨name, printText text, string (some text), reads_printText text⟩

def line (f : Field) : List Char := printText f.name ++ ':' :: f.text

def member (f : Field) : Json × Json := (string (some f.name), f.found)

def lines (fields : List Field) : List Char := [','].intercalate (fields.map line)

variable (f : Field)

theorem spelled_line : spelled f.line = spelled (printText f.name) ++ ':' :: spelled f.text := by
  rw [line, spelled_append, spelled_cons (by decide)]

theorem lines_singleton : lines [f] = f.line := List.intercalate_singleton

theorem lines_cons (g : Field) (more : List Field) :
    lines (f :: g :: more) = f.line ++ ',' :: lines (g :: more) := by
  simp only [lines, List.map_cons, List.intercalate_cons_cons, List.append_assoc,
    List.singleton_append]

theorem members_last (depth : Nat) (rest : List Char) :
    members (depth + 2) (spelled f.line ++ '\x7d' :: rest) = ([f.member], some rest) := by
  have colon : isGap ':' = false := rfl
  have brace : isGap '\x7d' = false := rfl
  simp only [spelled_line, List.append_assoc, List.cons_append, members,
    reads_printText f.name depth, f.reads depth, dropWhile_isGap colon, dropWhile_isGap brace, member]

theorem members_more (depth : Nat) (rest : List Char) :
    members (depth + 2) (spelled f.line ++ ',' :: rest) =
      (f.member :: (members (depth + 1) rest).1, (members (depth + 1) rest).2) := by
  have colon : isGap ':' = false := rfl
  have comma : isGap ',' = false := rfl
  rw [members]
  simp only [spelled_line, List.append_assoc, List.cons_append, reads_printText f.name depth,
    f.reads depth, dropWhile_isGap colon, dropWhile_isGap comma, member]

theorem members_lines (more : List Field) {depth : Nat} (rest : List Char)
    (enough : (spelled (lines (f :: more))).length < depth) :
    members depth (spelled (lines (f :: more)) ++ '\x7d' :: rest) =
      ((f :: more).map member, some rest) := by
  -- By induction on the members. Each takes up more of the text than it uses up of the depth.
  have nonempty (f : Field) : 0 < (spelled f.line).length := by
    rw [spelled_line, List.length_append, List.length_cons]
    omega
  induction more generalizing f depth with
  | nil =>
      rw [lines_singleton] at enough ⊢
      have size := nonempty f
      obtain ⟨deeper, rfl⟩ : ∃ deeper, depth = deeper + 2 := ⟨depth - 2, by omega⟩
      exact f.members_last deeper rest
  | cons g more ih =>
      have size := nonempty f
      rw [lines_cons, spelled_append, spelled_cons (by decide)] at enough ⊢
      rw [List.length_append, List.length_cons] at enough
      obtain ⟨deeper, rfl⟩ : ∃ deeper, depth = deeper + 2 := ⟨depth - 2, by omega⟩
      rw [List.append_assoc, List.cons_append, members_more, ih g (by omega)]
      rfl

def written : String × List Char := (f.name, f.text)

theorem spelled_printObject (fields : List Field) :
    spelled (printObject (fields.map written)) = '\x7b' :: (spelled (lines fields) ++ ['\x7d']) := by
  rw [printObject, List.map_map, List.cons_append, spelled_cons (by decide), spelled_append,
    spelled_cons (by decide), spelled_nil]
  rfl

theorem exists_spelled_lines (more : List Field) :
    ∃ tail, spelled (lines (f :: more)) = '"' :: tail := by
  cases more with
  | nil => exact ⟨_, by rw [lines_singleton, spelled_line, spelled_printText]; rfl⟩
  | cons g more =>
      exact ⟨_, by rw [lines_cons, spelled_append, spelled_line, spelled_printText]; rfl⟩

theorem value_printObject (more : List Field) {depth : Nat} (rest : List Char)
    (enough : (spelled (lines (f :: more))).length < depth) :
    value (depth + 1) (spelled (printObject ((f :: more).map written)) ++ rest) =
      (object ((f :: more).map member), some rest) := by
  obtain ⟨tail, starts⟩ := f.exists_spelled_lines more
  have found := f.members_lines more rest enough
  have brace : isGap '\x7b' = false := rfl
  have quote : isGap '"' = false := rfl
  rw [starts, List.cons_append] at found
  simp only [spelled_printObject, starts, List.cons_append, List.append_assoc, List.nil_append,
    value, dropWhile_isGap brace, dropWhile_isGap quote]
  exact congrArg (fun read => (object read.1, read.2)) found

end Field

theorem read_printObject {α : Type} (decode : Json → Except JsonFault α) (f : Field)
    (more : List Field) :
    read decode (Bytes.ofString (String.ofList (printObject ((f :: more).map Field.written)))) =
      decode (object ((f :: more).map Field.member)) := by
  have size : (spelled (Field.lines (f :: more))).length <
      2 * (spelled (printObject ((f :: more).map Field.written))).length := by
    rw [Field.spelled_printObject, List.length_cons, List.length_append]
    omega
  have found := f.value_printObject more [] size
  rw [List.append_nil] at found
  rw [read, letters_ofString]
  simp only [found]
  cases decode (object ((f :: more).map Field.member)) with
  | error fault => rfl
  | ok a => rfl

end SealedContainer.Json
