import SealedContainer.Bytes
import SealedContainer.Json

/-!
Reads JSON texts. No fault ends the reading: what follows it is left out, and `Json.broken` stands
in its place.
-/

namespace SealedContainer.Json

def isGap (c : Char) : Bool := c == ' ' || c == '\n' || c == '\t' || c == '\r'

/-! ## Strings -/

/-- A part of a string: a byte, or the 16-bit unit that an escape gives. -/
inductive Piece where
  | byte (b : UInt8)
  | unit (n : Nat)

def hexValue? (c : Char) : Option Nat :=
  if c.isDigit then some (c.toNat - '0'.toNat)
  else if 'a' ≤ c ∧ c ≤ 'f' then some (c.toNat - 'a'.toNat + 10)
  else if 'A' ≤ c ∧ c ≤ 'F' then some (c.toNat - 'A'.toNat + 10)
  else none

def hexNumber? (digits : List Char) : Option Nat :=
  digits.foldl (fun n c => do return 16 * (← n) + (← hexValue? c)) (some 0)

def shortEscape? : Char → Option Char
  | '"' => some '"'
  | '\\' => some '\\'
  | '/' => some '/'
  | 'b' => some '\x08'
  | 'f' => some '\x0c'
  | 'n' => some '\n'
  | 'r' => some '\r'
  | 't' => some '\t'
  | _ => none

def Piece.ofLetter (c : Char) : Piece := .byte (UInt8.ofNat c.toNat)

def pieces : List Char → Option (List Piece × List Char)
  | '"' :: rest => some ([], rest)
  | '\\' :: 'u' :: a :: b :: c :: d :: rest => do
    let n ← hexNumber? [a, b, c, d]
    let (more, rest) ← pieces rest
    return (.unit n :: more, rest)
  | '\\' :: e :: rest => do
    let c ← shortEscape? e
    let (more, rest) ← pieces rest
    return (.ofLetter c :: more, rest)
  | c :: rest =>
    if c.val < 0x20 ∨ c = '\\' then none
    else do
      let (more, rest) ← pieces rest
      return (.ofLetter c :: more, rest)
  | [] => none

def isHighUnit (n : Nat) : Bool := 0xD800 ≤ n && n ≤ 0xDBFF

def isLowUnit (n : Nat) : Bool := 0xDC00 ≤ n && n ≤ 0xDFFF

def written (n : Nat) : Bytes := Bytes.ofString (Char.ofNat n).toString

/-- The bytes of a string, two units making one character where they are a pair. -/
def joined : List Piece → Option Bytes
  | [] => some []
  | .byte b :: rest => (b :: ·) <$> joined rest
  | .unit n :: rest =>
    if isHighUnit n then
      match rest with
      | .unit m :: rest =>
        if isLowUnit m then
          (written (0x10000 + (n - 0xD800) * 0x400 + (m - 0xDC00)) ++ ·) <$> joined rest
        else none
      | _ => none
    else if isLowUnit n then none
    else (written n ++ ·) <$> joined rest

/-! ## Numbers -/

def digits? (cs : List Char) : Option (List Char × List Char) :=
  let run := Decimal.run cs
  if run.1 = [] then none else some run

def whole? (cs : List Char) : Option (List Char × List Char) :=
  match digits? cs with
  | some ('0' :: _ :: _, _) => none
  | other => other

def fraction? : List Char → Option (List Char × List Char)
  | '.' :: rest => digits? rest
  | cs => some ([], cs)

def exponent? : List Char → Option (Int × List Char)
  | e :: rest =>
    if e = 'e' ∨ e = 'E' then do
      let (negative, rest) := Decimal.sign rest
      let (digits, rest) ← digits? rest
      let n : Int := Decimal.value digits
      return (if negative then -n else n, rest)
    else some (0, e :: rest)
  | [] => some (0, [])

/-- A number without its sign: whether it is in range, and what follows it. -/
def number? (cs : List Char) : Option (Bool × List Char) := do
  let (whole, rest) ← whole? cs
  let (fraction, rest) ← fraction? rest
  let (exponent, rest) ← exponent? rest
  return (Decimal.isFinite (whole ++ fraction) (exponent - fraction.length), rest)

/-! ## Values -/

def word (word : String) (value : Json) (cs : List Char) : Json × Option (List Char) :=
  if word.toList.isPrefixOf cs then (value, some (cs.drop word.length)) else (broken, none)

def numberValue (cs : List Char) : Json × Option (List Char) :=
  match number? cs with
  | some (inRange, rest) => (number inRange, some rest)
  | none => (broken, none)

mutual

/-- The value in front, and what follows it unless the text breaks off within it. -/
def value : Nat → List Char → Json × Option (List Char)
  | 0, _ => (broken, none)
  | depth + 1, cs =>
    match cs.dropWhile isGap with
    | '"' :: rest =>
      match pieces rest with
      | some (parts, rest) => (string ((joined parts).bind Bytes.toString?), some rest)
      | none => (broken, none)
    | '[' :: rest =>
      match rest.dropWhile isGap with
      | ']' :: rest => (array [], some rest)
      | rest =>
        let (items, rest) := items depth rest
        (array items, rest)
    | '\x7b' :: rest =>
      match rest.dropWhile isGap with
      | '\x7d' :: rest => (object [], some rest)
      | rest =>
        let (members, rest) := members depth rest
        (object members, rest)
    | 'n' :: rest => word "null" null ('n' :: rest)
    | 't' :: rest => word "true" (bool true) ('t' :: rest)
    | 'f' :: rest => word "false" (bool false) ('f' :: rest)
    | '-' :: rest => numberValue rest
    | rest => numberValue rest

def items : Nat → List Char → List Json × Option (List Char)
  | 0, _ => ([broken], none)
  | depth + 1, cs =>
    match value depth cs with
    | (item, none) => ([item], none)
    | (item, some rest) =>
      match rest.dropWhile isGap with
      | ']' :: rest => ([item], some rest)
      | ',' :: rest =>
        let (more, rest) := items depth rest
        (item :: more, rest)
      | _ => ([item, broken], none)

def members : Nat → List Char → List (Json × Json) × Option (List Char)
  | 0, _ => ([(broken, broken)], none)
  | depth + 1, cs =>
    match value depth cs with
    | (name, none) => ([(name, broken)], none)
    | (name, some rest) =>
      match rest.dropWhile isGap with
      | ':' :: rest =>
        match value depth rest with
        | (item, none) => ([(name, item)], none)
        | (item, some rest) =>
          match rest.dropWhile isGap with
          | '\x7d' :: rest => ([(name, item)], some rest)
          | ',' :: rest =>
            let (more, rest) := members depth rest
            ((name, item) :: more, rest)
          | _ => ([(name, item), (broken, broken)], none)
      | _ => ([(name, broken)], none)

end

/--
The bytes of a text, each as the character with its number. Beyond ASCII they can stand in strings
only, which are made of bytes again.
-/
def letters (text : Bytes) : List Char := text.map fun b => Char.ofNat b.toNat

def read {α : Type} (decode : Json → Except JsonFault α) (text : Bytes) : Except JsonFault α := do
  let cs := letters text
  let (found, rest) := value (2 * cs.length + 1) cs
  let a ← decode found
  if (rest.map (·.all isGap)).getD false then return a else throw .malformed

end SealedContainer.Json
