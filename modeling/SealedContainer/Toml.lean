/-!
TOML documents as tables of values. A table remembers how it came about, for that decides what
later lines may add to it. A string is written in the simplest form that shows it without escapes, if
there is one.
-/

namespace SealedContainer

inductive TableForm where
  | inline
  | inlineWay
  | header
  | headerWay
  | keyWay
  deriving DecidableEq, Repr

/-- A value. Of floats and of dates there is nothing kept but that they are well formed. -/
inductive Toml where
  | string (text : String)
  | integer (n : Int)
  | float
  | boolean (value : Bool)
  | moment
  | array (items : List Toml)
  | table (form : TableForm) (entries : List (String × Toml))
  /-- The tables under headers in double brackets. -/
  | tables (all : List (List (String × Toml)))

namespace Toml

abbrev Entries := List (String × Toml)

structure Path where
  way : List String
  key : String
  deriving DecidableEq, Repr

def Entries.replace (es : Entries) (key : String) (value : Toml) : Entries :=
  es.map fun e => if e.1 = key then (key, value) else e

def changeLast {α : Type} (change : α → Option α) (l : List α) : Option (List α) := do
  return l.dropLast ++ [← change (← l.getLast?)]

/--
Adds a value under a new key. Tables on the way that are not there yet come about in the form
`made`. Those that are there must not be closed, and the last of them must be of that form.
-/
def insert (made : TableForm) (key : String) (value : Toml) :
    (way : List String) → Entries → Option Entries
  | [], es => if es.any (·.1 = key) then none else some (es ++ [(key, value)])
  | step :: way, es =>
    match es.lookup step with
    | none => do return es ++ [(step, table made (← insert made key value way []))]
    | some (table form inner) =>
      if form = made ∨ form = .headerWay ∧ way ≠ [] then do
        return Entries.replace es step (table form (← insert made key value way inner))
      else none
    | some (tables all) =>
      if way = [] then none
      else do return Entries.replace es step (tables (← changeLast (insert made key value way) all))
    | some _ => none

def atHeader (change : Entries → Option Entries) : (way : List String) → Entries → Option Entries
  | [], es => change es
  | step :: way, es =>
    match es.lookup step with
    | none => do return es ++ [(step, table .headerWay (← atHeader change way []))]
    | some (table form inner) =>
      if form = .inline then none
      else do return Entries.replace es step (table form (← atHeader change way inner))
    | some (tables all) => do
      return Entries.replace es step (tables (← changeLast (atHeader change way) all))
    | some _ => none

inductive Line where
  | entry (path : Path) (value : Toml)
  | header (double : Bool) (path : Path)

structure Section where
  double : Bool
  path : Path
  entries : List (Path × Toml)

def sections : List Line → List (Path × Toml) × List Section
  | [] => ([], [])
  | .entry path value :: lines =>
    let (entries, rest) := sections lines
    ((path, value) :: entries, rest)
  | .header double path :: lines =>
    let (entries, rest) := sections lines
    ([], ⟨double, path, entries⟩ :: rest)

def insertAll (made : TableForm) (es : Entries) (added : List (Path × Toml)) : Option Entries :=
  added.foldlM (fun es (path, value) => insert made path.key value path.way es) es

/-- A table may have one header, which may come after those of the tables within it. -/
def openTable (key : String) (added : List (Path × Toml)) (es : Entries) : Option Entries := do
  let start ← match es.lookup key with
    | none => some []
    | some (table .headerWay inner) => some inner
    | some _ => none
  return es.filter (·.1 ≠ key) ++ [(key, table .header (← insertAll .keyWay start added))]

def openElement (key : String) (added : List (Path × Toml)) (es : Entries) : Option Entries := do
  let element ← insertAll .keyWay [] added
  match es.lookup key with
  | none => return es ++ [(key, tables [element])]
  | some (tables all) => return Entries.replace es key (tables (all ++ [element]))
  | some _ => none

def Section.add (es : Entries) (s : Section) : Option Entries :=
  atHeader (if s.double then openElement s.path.key s.entries else openTable s.path.key s.entries)
    s.path.way es

def ofLines (lines : List Line) : Option Entries := do
  let (entries, rest) := sections lines
  rest.foldlM Section.add (← insertAll .keyWay [] entries)

def longestRun (c : Char) (cs : List Char) : Nat :=
  (cs.foldl (fun (run, longest) d =>
    let run := if d = c then run + 1 else 0
    (run, max run longest)) (0, 0)).2

def isControl (c : Char) : Bool := (c.val < 0x20 && c != '\t' && c != '\n') || c.val == 0x7F

def escapedChar (multiline : Bool) (c : Char) : List Char :=
  if c = '\x08' then ['\\', 'b']
  else if c = '\t' then ['\\', 't']
  else if c = '\n' then if multiline then ['\n'] else ['\\', 'n']
  else if c = '\x0c' then ['\\', 'f']
  else if c = '\r' then ['\\', 'r']
  else if c = '\\' then ['\\', '\\']
  else if isControl c then
    ['\\', 'u', '0', '0', Nat.digitChar (c.toNat / 16), (Nat.digitChar (c.toNat % 16)).toUpper]
  else [c]

/-- Escapes a text in which up to `most` quotation marks in a row may stand, `run` having passed. -/
def escaped (multiline : Bool) (most : Nat) : (run : Nat) → List Char → List Char
  | _, [] => []
  | run, c :: cs =>
    if c = '"' then
      if run < most then '"' :: escaped multiline most (run + 1) cs
      else '\\' :: '"' :: escaped multiline most 0 cs
    else escapedChar multiline c ++ escaped multiline most 0 cs

/-- A text between marks. If it has more than one line it begins on a line of its own. -/
def enclosed (mark : List Char) (cs content : List Char) : List Char :=
  mark ++ (if cs.contains '\n' then ['\n'] else []) ++ content ++ mark

def tripled (c : Char) : List Char := [c, c, c]

def quoted (cs : List Char) : List Char :=
  let singles := longestRun '\'' cs
  let doubles := longestRun '"' cs
  let multiline := cs.contains '\n'
  let needsEscape := cs.any isControl
  let plain := !needsEscape && !cs.contains '\\'
  let inTripled := enclosed (tripled '"') cs (escaped true 2 0 cs)
  if plain ∧ doubles = 0 ∧ !multiline then enclosed ['"'] cs (escaped false 0 0 cs)
  else if !needsEscape ∧ singles = 0 ∧ !multiline then enclosed ['\''] cs cs
  else if plain ∧ doubles ≤ 2 then inTripled
  else if !needsEscape ∧ singles ≤ 2 then enclosed (tripled '\'') cs cs
  else if multiline then inTripled
  else enclosed ['"'] cs (escaped false 0 0 cs)

def printString (s : String) : String := String.ofList (quoted s.toList)

def printBool (b : Bool) : String := if b then "true" else "false"

def printTable (header : String) (entries : List (String × String)) : String :=
  "[" ++ header ++ "]\n" ++ String.join (entries.map fun e => e.1 ++ " = " ++ e.2 ++ "\n")

end Toml

end SealedContainer
