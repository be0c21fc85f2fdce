import SealedContainer.Bytes.Base64

/-!
Texts that carry a labelled block of bytes in base64 between two boundary lines.

Reading is strict: every line but the last of the block has 64 digits, at most one line end
follows the last boundary, and what stands before the first one holds no NUL.
-/

namespace SealedContainer.Pem

def lineWidth : Nat := 64

def beginMark : List Char := "-----BEGIN ".toList

def endMark : List Char := "-----END ".toList

def dashes : List Char := "-----".toList

def wrapped (digits : List Char) : List Char :=
  match digits with
  | [] => []
  | c :: rest => (c :: rest.take 63) ++ '\n' :: wrapped (rest.drop 63)
  termination_by digits.length
  decreasing_by simp only [List.length_cons, List.length_drop]; omega

def encode (label : String) (bytes : Bytes) : String :=
  String.ofList (beginMark ++ label.toList ++ dashes ++ '\n' :: wrapped (Base64.encode bytes) ++
    endMark ++ label.toList ++ dashes ++ ['\n'])

/-- From the first boundary on, which starts the text or a line. -/
def skipPreamble : List Char → Option (List Char)
  | [] => none
  | c :: rest =>
    if c = '\x00' then none
    else if c = '\n' ∧ beginMark.isPrefixOf rest then some rest
    else skipPreamble rest

def stripLineEnd? : List Char → Option (List Char)
  | '\r' :: '\n' :: rest => some rest
  | '\r' :: rest => some rest
  | '\n' :: rest => some rest
  | _ => none

def stripReversedLineEnd? : List Char → Option (List Char)
  | '\n' :: '\r' :: rest => some rest
  | '\n' :: rest => some rest
  | '\r' :: rest => some rest
  | _ => none

def isLabelChar (c : Char) : Bool :=
  (0x21 ≤ c.val && c.val ≤ 0x2C) || (0x2E ≤ c.val && c.val ≤ 0x7E)

/-- The label up to a dash; blanks stand alone and not in front. -/
def label? (blankAllowed : Bool) : List Char → Option (List Char × List Char)
  | [] => some ([], [])
  | c :: rest =>
    if c = '-' then some ([], c :: rest)
    else if isLabelChar c then (label? true rest).map fun (l, r) => (c :: l, r)
    else if blankAllowed ∧ (c = ' ' ∨ c = '\t') then
      (label? false rest).map fun (l, r) => (c :: l, r)
    else none

def stripFront? (front text : List Char) : Option (List Char) :=
  if front.isPrefixOf text then some (text.drop front.length) else none

def unwrapped (text : List Char) : Option (List Char) :=
  match text.drop lineWidth with
  | [] =>
    let reversed := text.reverse
    some ((stripReversedLineEnd? reversed).getD reversed).reverse
  | c :: rest =>
    match stripLineEnd? (c :: rest) with
    | none => none
    | some more =>
      if _h : more.length < text.length then (unwrapped more).map (text.take lineWidth ++ ·)
      else none
  termination_by text.length

def decode? (text : List Char) : Option (String × Bytes) := do
  let start ← if beginMark.isPrefixOf text then some text else skipPreamble text
  let (label, rest) ← label? false (start.drop beginMark.length)
  let body ← stripLineEnd? (← stripFront? dashes rest)
  let reversed := body.reverse
  let tail ← stripFront? dashes ((stripReversedLineEnd? reversed).getD reversed)
  let tail ← stripFront? label.reverse tail
  let tail ← stripFront? endMark.reverse tail
  let block ← stripReversedLineEnd? tail
  if block = [] then none
  else
    let bytes ← Base64.decode (← unwrapped block.reverse)
    return (String.ofList label, bytes)

end SealedContainer.Pem
