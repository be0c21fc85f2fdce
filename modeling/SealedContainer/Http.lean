import SealedContainer.Bytes
import SealedContainer.Bytes.Hex

/-!
Requests and responses of the hypertext transfer protocol, as far as the servers here look at them:
also media types such as `application/json; charset=utf-8`, and which path a target names.
-/

namespace SealedContainer.Http

def isTokenChar (c : Char) : Bool := c.isAlphanum || "!#$%&'*+-.^_\x60|~".toList.contains c

def isToken (s : String) : Bool := !s.isEmpty && s.toList.all isTokenChar

/-- Bytes that may stand in the value of a header: tabs, and all but the control characters. -/
def isFieldByte (b : UInt8) : Bool := b == 9 || 32 ≤ b && b != 127

def isFieldText (s : String) : Bool := (Bytes.ofString s).all isFieldByte

structure Request where
  method : String
  target : String
  headers : List (String × Bytes)
  body : Bytes
  deriving DecidableEq, Repr

structure Response where
  status : Nat
  headers : List (String × String)
  body : String
  deriving DecidableEq, Repr

def folded (name : String) : List Char := name.toList.map Char.toLower

namespace Request

def header? (r : Request) (name : String) : Option Bytes :=
  (r.headers.find? fun h => folded h.1 == folded name).map (·.2)

def hasValidHeaders (r : Request) : Bool :=
  r.headers.all fun h => isToken h.1 && h.2.all isFieldByte

end Request

namespace Response

def ofStatus (status : Nat) : Response := ⟨status, [], ""⟩

def ofJson (status : Nat) (body : List Char) : Response :=
  ⟨status, [("content-type", "application/json")], String.ofList body⟩

def ofText (status : Nat) (body : String) : Response :=
  ⟨status, [("content-type", "text/plain; charset=utf-8")], body⟩

def notAllowed (methods : String) : Response := ⟨405, [("allow", methods)], ""⟩

def withoutBody (r : Response) : Response := { r with body := "" }

def header? (r : Response) (name : String) : Option String :=
  (r.headers.find? fun h => folded h.1 == folded name).map (·.2)

end Response

def visible? (value : Bytes) : Option String :=
  if value.all fun b => b == 9 || 32 ≤ b && b < 127 then Bytes.toString? value else none

structure MediaType where
  /-- The part before the slash, in lower case. -/
  main : List Char
  /-- The part behind the slash, in lower case, up to the last plus sign. -/
  sub : List Char
  /-- What stands behind the last plus sign, if there is one. -/
  ending : Option (List Char)
  deriving DecidableEq, Repr

namespace MediaType

def isTokenChar (c : Char) : Bool := c != '*' && Http.isTokenChar c

def isQuotedChar (c : Char) : Bool := 32 ≤ c.val && c.val != 127

def afterQuoted : List Char → Option (List Char)
  | [] => none
  | first :: rest =>
    let more := rest.takeWhile (· != '"')
    match rest.drop more.length with
    | [] => none
    | _ :: behind =>
      if (first :: more).all isQuotedChar then some (behind.dropWhile (· == ' ')) else none

def afterValue (cs : List Char) : Option (List Char) :=
  let behind := match cs with
    | '"' :: rest => afterQuoted rest
    | ';' :: _ => none
    | _ => some (cs.dropWhile isTokenChar)
  match behind with
  | some (';' :: rest) => some rest
  | some [] => some []
  | _ => none

def areParameters : Nat → List Char → Bool
  | 0, _ => false
  | n + 1, cs =>
    match cs.dropWhile (· == ' ') with
    | [] => true
    | cs =>
      match cs.dropWhile isTokenChar with
      | '=' :: rest =>
        isTokenChar (cs.headD ' ') && ((afterValue rest).map (areParameters n)).getD false
      | _ => false

/-- The part behind the slash, cut at its last plus sign unless that is in front. -/
def ofParts (main sub : List Char) : MediaType :=
  let ending := (sub.reverse.takeWhile (· != '+')).reverse
  let rest := sub.take (sub.length - ending.length - 1)
  if ending.length < sub.length && !rest.isEmpty then ⟨main, rest, some ending⟩
  else ⟨main, sub, none⟩

def parse (text : String) : Option MediaType :=
  let lower := text.toList.map Char.toLower
  let main := lower.takeWhile isTokenChar
  match lower.drop main.length with
  | '/' :: rest =>
    let sub := rest.takeWhile isTokenChar
    let found := ofParts main sub
    match rest.drop sub.length with
    | [] => if main.isEmpty then none else some found
    | c :: rest =>
      let named := !main.isEmpty && !sub.isEmpty
      if c = ';' && named && areParameters (rest.length + 1) rest then some found else none
  | _ => none

def isJson (m : MediaType) : Bool :=
  m.main == "application".toList && (m.sub == "json".toList || m.ending == some "json".toList)

end MediaType

namespace Target

def isPathChar (c : Char) : Bool :=
  c.val == 0x21 || (0x24 ≤ c.val && c.val ≤ 0x3B) || c.val == 0x3D ||
  (0x40 ≤ c.val && c.val ≤ 0x5F) || (0x61 ≤ c.val && c.val ≤ 0x7A) || c.val == 0x7C ||
  0x7E ≤ c.val || c == '"' || c == '\x7b' || c == '\x7d'

def isQueryChar (c : Char) : Bool :=
  c.val == 0x21 || (0x24 ≤ c.val && c.val ≤ 0x3B) || c.val == 0x3D || 0x3F ≤ c.val

def isAuthorityChar (c : Char) : Bool := c.isAlphanum || "-._~:@!$&'()*+,;=[]%".toList.contains c

def localPath? (cs : List Char) : Option String :=
  let cs := cs.takeWhile (· != '#')
  let path := cs.takeWhile (· != '?')
  let query := (cs.drop path.length).drop 1
  if path.all isPathChar && query.all isQueryChar then some (String.ofList path) else none

def afterScheme? (cs : List Char) : Option (List Char) :=
  ["http://", "https://"].findSome? fun scheme =>
    let front := cs.take scheme.length
    if front.map Char.toLower == scheme.toList then some (cs.drop scheme.length) else none

/--
The path that a target names. With a scheme and a host the path may be left out and is then the
root; a host alone has none.
-/
def path? (target : String) : Option String :=
  let cs := target.toList
  match cs with
  | '/' :: _ => localPath? cs
  | ['*'] => some "*"
  | _ =>
    match afterScheme? cs with
    | some rest =>
      let host := rest.takeWhile fun c => c != '/' && c != '?' && c != '#'
      let rest := rest.drop host.length
      if host.isEmpty || !host.all isAuthorityChar then none
      else if rest.head? = some '/' then localPath? rest
      else (localPath? rest).map fun _ => "/"
    | none => if cs.isEmpty || !cs.all isAuthorityChar then none else some ""

def unescaped : List Char → Bytes
  | [] => []
  | '%' :: a :: b :: rest =>
    match Hex.digit? a, Hex.digit? b with
    | some m, some n => UInt8.ofNat (16 * m + n) :: unescaped rest
    | _, _ => Bytes.ofString "%" ++ unescaped (a :: b :: rest)
  | c :: rest => Bytes.ofString c.toString ++ unescaped rest

end Target

end SealedContainer.Http
