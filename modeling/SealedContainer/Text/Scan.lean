import SealedContainer.Text

/-!
Steps that read a text from its front, each leaving the rest to the next, or fail.
-/

namespace SealedContainer

abbrev Scan := StateT (List Char) Option

namespace Scan

def one (p : Char → Bool) : Scan Char := do
  match ← get with
  | c :: rest => if p c then set rest; return c else failure
  | [] => failure

def char (c : Char) : Scan Unit := discard (one (· == c))

def skip (p : Char → Bool) : Scan Unit := modify (List.dropWhile p)

def accept (c : Char) : Scan Bool := do
  match ← get with
  | d :: rest => if c = d then set rest; return true else return false
  | [] => return false

def exactly (n : Nat) : Scan Nat := fun cs => Decimal.exactly n cs

def upTo (most : Nat) : Scan Nat := do
  let rest ← get
  let digits := (rest.takeWhile Char.isDigit).take most
  if digits = [] then failure
  set (rest.drop digits.length)
  return Decimal.value digits

def number : Scan Nat := do upTo (← get).length

def word (text : String) : Scan Unit := do
  let rest ← get
  if text.toList.isPrefixOf rest then set (rest.drop text.length) else failure

def some1 (p : Char → Bool) : Scan (List Char) := do
  let rest ← get
  let found := rest.takeWhile p
  if found = [] then failure
  set (rest.drop found.length)
  return found

def manyUpTo {α : Type} (step : Scan α) : Nat → Scan (List α)
  | 0 => pure []
  | n + 1 => fun cs =>
    match step cs with
    | none => some ([], cs)
    | some (a, rest) => (manyUpTo step n rest).map fun (more, rest) => (a :: more, rest)

/-- What a step reads that is taken until it fails. Every step has to read something. -/
def many {α : Type} (step : Scan α) : Scan (List α) := do manyUpTo step (← get).length

def optional {α : Type} (step : Scan α) : Scan (Option α) := fun cs =>
  match step cs with
  | some (a, rest) => some (some a, rest)
  | none => some (none, cs)

def separated {α : Type} (separator : Scan Unit) (step : Scan α) : Scan (List α) := do
  let first ← step
  let more ← many do
    separator
    step
  return first :: more

def atEnd : Scan Unit := do if (← get) = [] then return else failure

def whole {α : Type} (step : Scan α) (cs : List Char) : Option α :=
  match step.run cs with
  | some (a, []) => some a
  | _ => none

end Scan

end SealedContainer
