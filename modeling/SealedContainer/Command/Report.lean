import SealedContainer.Error
import SealedContainer.FileTree

/-!
How a command tells why it failed: what it was doing, and the causes below that.
-/

namespace SealedContainer

structure Report where
  text : String
  causes : List String
  deriving DecidableEq, Repr

namespace Report

def indented (first later text : String) : String :=
  first ++ ("\n" ++ later).intercalate (text.splitOn "\n")

def causeLines : List String → List String
  | [] => []
  | [cause] => [indented "    " "    " cause]
  | causes => causes.zipIdx.map fun (cause, i) =>
    let number := toString i
    indented ("".pushn ' ' (5 - number.length) ++ number ++ ": ") "       " cause

def render (r : Report) : String :=
  let below := match causeLines r.causes with
    | [] => ""
    | lines => "\n\nCaused by:\n" ++ "\n".intercalate lines
  "Error: " ++ r.text ++ below ++ "\n"

def within (context : String) (r : Report) : Report := ⟨context, r.text :: r.causes⟩

def ofFileError (e : FileError) : Report := ⟨e.message, []⟩

/-- A failure of a stream is its own cause. -/
def ofCryptoError (e : CryptoError) : Report :=
  match e with
  | .io text => ⟨e.message, [text]⟩
  | _ => ⟨e.message, []⟩

end Report

structure Outcome where
  code : Nat
  output : String
  complaint : String
  deriving DecidableEq, Repr

namespace Outcome

def success (output : String) : Outcome := ⟨0, output, ""⟩

def failure (r : Report) : Outcome := ⟨1, "", r.render⟩

end Outcome

end SealedContainer
