import SealedContainer.Calendar
import SealedContainer.Text.Scan
import SealedContainer.Toml

/-!
Reads TOML documents: the forms of keys and values, and the lines that they make up.
-/

namespace SealedContainer.Toml

def isGap (c : Char) : Bool := c == ' ' || c == '\t'

def gap : Scan Unit := Scan.skip isGap

def newline : Scan Unit := do
  match ← get with
  | '\n' :: rest => set rest
  | '\r' :: '\n' :: rest => set rest
  | _ => failure

def isPrintable (c : Char) : Bool := c == '\t' || 0x20 ≤ c.val && c.val != 0x7F

def comment : Scan Unit := do
  Scan.char '#'
  Scan.skip isPrintable

def lineEnd : Scan Unit := do
  gap
  discard (Scan.optional comment)
  newline <|> Scan.atEnd

def loose : Scan Unit := do
  gap
  discard <| Scan.many do
    discard (Scan.optional comment)
    newline
    gap

/-! ## Strings -/

def hexValue? (c : Char) : Option Nat :=
  if c.isDigit then some (c.toNat - '0'.toNat)
  else if 'a' ≤ c ∧ c ≤ 'f' then some (c.toNat - 'a'.toNat + 10)
  else if 'A' ≤ c ∧ c ≤ 'F' then some (c.toNat - 'A'.toNat + 10)
  else none

def codePoint (width : Nat) : Scan Char := do
  let rest ← get
  let digits := rest.take width
  let values := digits.filterMap hexValue?
  let n := values.foldl (fun n d => 16 * n + d) 0
  if values.length = width ∧ n.isValidChar then
    set (rest.drop width)
    return Char.ofNat n
  else failure

def escape : Scan Char := do
  match ← Scan.one fun _ => true with
  | 'b' => return '\x08'
  | 'f' => return '\x0c'
  | 'n' => return '\n'
  | 'r' => return '\r'
  | 't' => return '\t'
  | '"' => return '"'
  | '\\' => return '\\'
  | 'u' => codePoint 4
  | 'U' => codePoint 8
  | _ => failure

def basicString : Scan String := do
  Scan.char '"'
  let chars ← Scan.many do
    match ← Scan.one fun c => isPrintable c && c != '"' with
    | '\\' => escape
    | c => return c
  Scan.char '"'
  return String.ofList chars

def literalString : Scan String := do
  Scan.char '\''
  let rest ← get
  let chars := rest.takeWhile fun c => isPrintable c && c != '\''
  set (rest.drop chars.length)
  Scan.char '\''
  return String.ofList chars

/-- Up to two quotation marks more than the three that close a string belong to it. -/
def closing (mark : Char) : Scan (List Char) := do
  Scan.word (String.ofList [mark, mark, mark])
  if ← Scan.accept mark then
    if ← Scan.accept mark then return [mark, mark] else return [mark]
  else return []

/-- A part of a string of several lines: some characters, but not the closing marks. -/
def multilinePart (mark : Char) (special : Scan (List Char)) : Scan (List Char) := do
  match ← get with
  | '\n' :: rest =>
    set rest
    return ['\n']
  | '\r' :: '\n' :: rest =>
    set rest
    return ['\n']
  | c :: rest =>
    if [mark, mark, mark].isPrefixOf (c :: rest) then failure
    else if c = '\\' then special
    else if isPrintable c then
      set rest
      return [c]
    else failure
  | [] => failure

/-- A backslash at the end of a line leaves out all white space from there. -/
def continued : Scan (List Char) := do
  Scan.char '\\'
  gap
  newline
  discard <| Scan.many (discard (Scan.one isGap) <|> newline)
  return []

def multiline (mark : Char) (special : Scan (List Char)) : Scan String := do
  Scan.word (String.ofList [mark, mark, mark])
  discard (Scan.optional newline)
  let parts ← Scan.many (multilinePart mark special)
  let rest ← closing mark
  return String.ofList (parts.flatten ++ rest)

def multilineBasic : Scan String :=
  multiline '"' (continued <|> do
    Scan.char '\\'
    return [← escape])

def multilineLiteral : Scan String :=
  multiline '\'' do
    Scan.char '\\'
    return ['\\']

def quotedString : Scan String :=
  multilineBasic <|> basicString <|> multilineLiteral <|> literalString

/-! ## Keys -/

def isBare (c : Char) : Bool := c.isAlphanum || c == '-' || c == '_'

def simpleKey : Scan String :=
  basicString <|> literalString <|> String.ofList <$> Scan.some1 isBare

def maxDepth : Nat := 80

def path : Scan Path := do
  let keys ← Scan.separated (Scan.char '.') do
    gap
    let key ← simpleKey
    gap
    return key
  match keys.getLast? with
  | some last => if keys.length ≤ maxDepth then return ⟨keys.dropLast, last⟩ else failure
  | none => failure

/-! ## Numbers and dates -/

def digits (isDigit : Char → Bool) : Scan (List Char) := do
  let first ← Scan.one isDigit
  let more ← Scan.many (Scan.one isDigit <|> do
    Scan.char '_'
    Scan.one isDigit)
  return first :: more

def sign : Scan Bool := do
  if ← Scan.accept '-' then return true
  discard (Scan.accept '+')
  return false

def whole : Scan (List Char) :=
  fun cs =>
    match cs with
    | '0' :: rest => some (['0'], rest)
    | _ => digits Char.isDigit cs

def word? (n : Int) : Scan Toml :=
  if -(2 ^ 63) ≤ n ∧ n < 2 ^ 63 then return integer n else failure

def integerIn (base : Nat) (isDigit : Char → Bool) (mark : String) : Scan Toml := do
  Scan.word mark
  let found ← digits isDigit
  word? ((found.filterMap hexValue?).foldl (fun n d => base * n + d) 0 : Nat)

def decimalInteger : Scan Toml := do
  let negative ← sign
  let n : Int := Decimal.value (← whole)
  word? (if negative then -n else n)

def integerValue : Scan Toml := do
  match ← get with
  | '0' :: 'x' :: _ => integerIn 16 (fun c => (hexValue? c).isSome) "0x"
  | '0' :: 'o' :: _ => integerIn 8 (fun c => '0' ≤ c && c ≤ '7') "0o"
  | '0' :: 'b' :: _ => integerIn 2 (fun c => c == '0' || c == '1') "0b"
  | _ => decimalInteger

def exponent : Scan Int := do
  discard (Scan.one fun c => c == 'e' || c == 'E')
  let negative ← sign
  let n : Int := Decimal.value (← digits Char.isDigit)
  return if negative then -n else n

/-- A number with a fraction or an exponent, or both. One that is too large may only be negative. -/
def plainFloat : Scan Toml := do
  let negative ← sign
  let front ← whole
  let fraction ← Scan.optional do
    Scan.char '.'
    digits Char.isDigit
  let power ← Scan.optional exponent
  if fraction.isNone ∧ power.isNone then failure
  let back := fraction.getD []
  if negative || Decimal.isFinite (front ++ back) (power.getD 0 - back.length) then return float
  else failure

def specialFloat : Scan Toml := do
  discard sign
  Scan.word "inf" <|> Scan.word "nan"
  return float

def numberBelow (limit : Nat) : Scan Nat := do
  let n ← Scan.exactly 2
  if n < limit then return n else failure

def date : Scan Unit := do
  let year ← Scan.exactly 4
  Scan.char '-'
  let month ← Scan.exactly 2
  Scan.char '-'
  let day ← Scan.exactly 2
  if (Date.mk year month day).Exists then return else failure

def time : Scan Unit := do
  discard (numberBelow 24)
  Scan.char ':'
  discard (numberBelow 60)
  Scan.char ':'
  discard (numberBelow 61)
  discard <| Scan.optional do
    Scan.char '.'
    Scan.some1 Char.isDigit

def offset : Scan Unit := do
  let mark ← Scan.one fun c => c == 'Z' || c == 'z' || c == '+' || c == '-'
  if mark == 'Z' || mark == 'z' then return
  discard (numberBelow 24)
  Scan.char ':'
  discard (numberBelow 60)

/-- A date, a time of day, or both, and then maybe with an offset. -/
def momentValue : Scan Toml := do
  (do
    date
    discard <| Scan.optional do
      discard (Scan.one fun c => c == 'T' || c == 't' || c == ' ')
      time
      discard (Scan.optional offset)) <|> time
  return moment

/-! ## Values -/

def scalar : Scan Toml := do
  match ← get with
  | [] => failure
  | c :: _ =>
    if c = '"' ∨ c = '\'' then return string (← quotedString)
    else if c = 't' then
      Scan.word "true"
      return boolean true
    else if c = 'f' then
      Scan.word "false"
      return boolean false
    else momentValue <|> plainFloat <|> specialFloat <|> integerValue

def arrayOf (item : Scan Toml) : Scan Toml := do
  Scan.char '['
  let items ← Scan.optional <| Scan.separated (Scan.char ',') do
    loose
    let found ← item
    loose
    return found
  if items.isSome then discard (Scan.accept ',')
  loose
  Scan.char ']'
  return array (items.getD [])

def entry (item : Scan Toml) : Scan (Path × Toml) := do
  let found ← path
  Scan.char '='
  gap
  return (found, ← item)

def inlineTable (item : Scan Toml) : Scan Toml := do
  Scan.char '\x7b'
  let entries ← Scan.optional <| Scan.separated (Scan.char ',') do
    let found ← entry item
    gap
    return found
  gap
  Scan.char '\x7d'
  match insertAll .inlineWay [] (entries.getD []) with
  | some es => return table .inline es
  | none => failure

def value : Nat → Scan Toml
  | 0 => scalar
  | depth + 1 => scalar <|> arrayOf (value depth) <|> inlineTable (value depth)

/-! ## Documents -/

def header : Scan Line := do
  Scan.char '['
  let double ← Scan.accept '['
  let found ← path
  Scan.word (if double then "]]" else "]")
  lineEnd
  return .header double found

def entryLine : Scan Line := do
  let (found, item) ← entry (value maxDepth)
  lineEnd
  return .entry found item

def emptyLine : Scan Unit := newline <|> do
  comment
  newline <|> Scan.atEnd

def line : Scan (Option Line) := do
  let found ← (do
    emptyLine
    return none) <|> some <$> header <|> some <$> entryLine
  gap
  return found

def orderMark : Char := '\uFEFF'

def parse (text : String) : Option Entries := do
  let lines ← Scan.whole (do
    discard (Scan.accept orderMark)
    gap
    Scan.many line) text.toList
  ofLines (lines.filterMap id)

end SealedContainer.Toml
