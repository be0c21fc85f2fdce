/-!
White space and decimal digits: texts without the white space around them, runs of digits, the
numbers they stand for, and numbers written with them.
-/

namespace SealedContainer

/-- The characters of the property White_Space. -/
def isBlank (c : Char) : Bool :=
  (0x09 ≤ c.val && c.val ≤ 0x0D) || c.val == 0x20 || c.val == 0x85 || c.val == 0xA0 ||
  c.val == 0x1680 || (0x2000 ≤ c.val && c.val ≤ 0x200A) || c.val == 0x2028 || c.val == 0x2029 ||
  c.val == 0x202F || c.val == 0x205F || c.val == 0x3000

def trimBoth {α : Type} (p : α → Bool) (l : List α) : List α :=
  ((l.dropWhile p).reverse.dropWhile p).reverse

def trimmed (s : String) : List Char := trimBoth isBlank s.toList

end SealedContainer

namespace SealedContainer.Decimal

def digitValue (c : Char) : Nat := c.toNat - '0'.toNat

def value (digits : List Char) : Nat := digits.foldl (fun n c => 10 * n + digitValue c) 0

def run (cs : List Char) : List Char × List Char := cs.span Char.isDigit

def exactly (n : Nat) (cs : List Char) : Option (Nat × List Char) :=
  let digits := cs.take n
  if digits.length = n ∧ digits.all Char.isDigit then some (value digits, cs.drop n) else none

def sign (cs : List Char) : Bool × List Char :=
  match cs with
  | '-' :: rest => (true, rest)
  | '+' :: rest => (false, rest)
  | _ => (false, cs)

def lowDigits : (width n : Nat) → List Char
  | 0, _ => []
  | width + 1, n => lowDigits width (n / 10) ++ [Char.ofNat ('0'.toNat + n % 10)]

def padded (width n : Nat) : String :=
  let digits := Nat.toDigits 10 n
  String.ofList (List.replicate (width - digits.length) '0' ++ digits)

/-- The least number that rounds to no finite 64-bit float. -/
def floatLimit : Nat := 2 ^ 1024 - 2 ^ 970

/-- Whether the number with these digits, times a power of ten, rounds to a finite 64-bit float. -/
def isFinite (digits : List Char) (exponent : Int) : Bool :=
  let digits := digits.dropWhile (· == '0')
  let top := digits.length + exponent
  digits.isEmpty || top ≤ 308 ||
    (top ≤ 310 && value digits * 10 ^ exponent.toNat < floatLimit * 10 ^ (-exponent).toNat)

end SealedContainer.Decimal
