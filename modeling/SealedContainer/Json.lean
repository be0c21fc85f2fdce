import SealedContainer.Text

/-!
JSON texts: what is read of them, in the order of the text, and how values are written, in the
shortest form.

A text that stops being JSON is read up to there. So whoever looks for values in it meets the
first fault of the text, be it in its grammar or in its values.
-/

namespace SealedContainer

inductive Json where
  | null
  | bool (value : Bool)
  /-- A number, and whether it is within the range of a 64-bit float. -/
  | number (inRange : Bool)
  /-- A string, unless something in it stands for no character. -/
  | string (text : Option String)
  | array (items : List Json)
  /-- The members in order. The names of a well-formed object are strings. -/
  | object (members : List (Json × Json))
  /-- Where the text stops being JSON. -/
  | broken

inductive JsonFault where
  | malformed
  | mismatch
  deriving DecidableEq, Repr

namespace Json

mutual

def isWhole : Json → Bool
  | broken => false
  | array items => allWhole items
  | object members => membersWhole members
  | null | bool _ | number _ | string _ => true

def allWhole : List Json → Bool
  | [] => true
  | item :: items => isWhole item && allWhole items

def membersWhole : List (Json × Json) → Bool
  | [] => true
  | (string _, value) :: members => isWhole value && membersWhole members
  | _ => false

end

def unexpected : Json → JsonFault
  | broken | string none | number false => .malformed
  | _ => .mismatch

def asText : Json → Except JsonFault String
  | string (some text) => .ok text
  | other => .error other.unexpected

def asBool : Json → Except JsonFault Bool
  | bool value => .ok value
  | other => .error other.unexpected

/-- A value of no interest, which still has to be JSON. -/
def ignore (value : Json) : Except JsonFault Unit :=
  if value.isWhole then .ok () else .error .malformed

def memberName : Json → Except JsonFault String
  | string (some text) => .ok text
  | _ => .error .malformed

/--
Passes the fields of a record to `add` in turn, each with its name. A record is an object, or an
array with the values in the order of `names`.
-/
def foldFields {α : Type} (names : List String) (add : α → String → Json → Except JsonFault α)
    (start : α) : Json → Except JsonFault α
  | object members =>
    members.foldlM (fun a member => do add a (← memberName member.1) member.2) start
  | array items => do
    let a ← (names.zip items).foldlM (fun a field => add a field.1 field.2) start
    if names.length < items.length then .error .malformed else return a
  | other => .error other.unexpected

def once {α : Type} (known : Option α) (value : Except JsonFault α) : Except JsonFault (Option α) :=
  match known with
  | some _ => .error .mismatch
  | none => some <$> value

def given {α : Type} (known : Option α) : Except JsonFault α :=
  match known with
  | some a => .ok a
  | none => .error .mismatch

def hexDigits (width n : Nat) : List Char :=
  (List.range width).reverse.map fun i => Nat.digitChar (n / 16 ^ i % 16)

def escaped (c : Char) : List Char :=
  if c = '"' ∨ c = '\\' then ['\\', c]
  else if c = '\x08' then ['\\', 'b']
  else if c = '\t' then ['\\', 't']
  else if c = '\n' then ['\\', 'n']
  else if c = '\x0c' then ['\\', 'f']
  else if c = '\r' then ['\\', 'r']
  else if c.val < 0x20 then ['\\', 'u'] ++ hexDigits 4 c.toNat
  else [c]

def printText (s : String) : List Char := '"' :: s.toList.flatMap escaped ++ ['"']

def printBool (b : Bool) : List Char := (if b then "true" else "false").toList

def printNull : List Char := "null".toList

def printObject (members : List (String × List Char)) : List Char :=
  let written := members.map fun member => printText member.1 ++ ':' :: member.2
  '\x7b' :: [','].intercalate written ++ ['\x7d']

end Json

end SealedContainer
