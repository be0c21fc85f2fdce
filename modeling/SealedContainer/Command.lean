import SealedContainer.Command.Arguments

/-!
The commands that make keys and containers, look into containers, and open them.
-/

namespace SealedContainer

inductive Command where
  | keygen (curve privatePath publicPath : String)
  | create (container : String) (publicKeys : List String) (input : String)
  | decrypt (container privateKey output : String)
  | info (container : String)
  deriving DecidableEq, Repr

inductive CommandName where
  | keygen
  | create
  | decrypt
  | info
  deriving DecidableEq, Repr

namespace CommandName

def text : CommandName → String
  | keygen => "keygen"
  | create => "create"
  | decrypt => "decrypt"
  | info => "info"

def all : List CommandName := [keygen, create, decrypt, info]

def pathFlag (name : String) (letter : Option Char) : Flag := ⟨name, letter, false, false⟩

def grammar : CommandName → Grammar
  | keygen =>
    ⟨[⟨"curve", none, false, true⟩, pathFlag "private" none, pathFlag "public" none], 0, false⟩
  | create => ⟨[pathFlag "file" 'f', ⟨"pubkey", none, true, false⟩], 1, false⟩
  | decrypt => ⟨[pathFlag "file" 'f', pathFlag "key" 'k', pathFlag "output" 'o'], 0, false⟩
  | info => ⟨[pathFlag "file" 'f'], 0, false⟩

end CommandName

namespace Command

def defaultCurve : String := "secp384r1"

def ofArguments (name : CommandName) (a : Arguments) : Except Halt Command := do
  match name with
  | .keygen =>
    return keygen ((a.value? "curve").getD defaultCurve) (← a.required "private")
      (← a.required "public")
  | .create =>
    match a.values "pubkey", a.operands with
    | key :: keys, [input] => return create (← a.required "file") (key :: keys) input
    | _, _ => throw .usage
  | .decrypt =>
    return decrypt (← a.required "file") (← a.required "key") (← a.required "output")
  | .info => return info (← a.required "file")

def outerGrammar : Grammar := ⟨[⟨"log", none, false, true⟩], 0, true⟩

inductive Topic where
  | overview
  | command (name : CommandName)
  | help
  deriving DecidableEq, Repr

/-- What a command line asks for instead of a command, and where it does so. -/
structure Refusal where
  halt : Halt
  topic : Topic
  deriving DecidableEq, Repr

/-- Explains the command whose name follows, or gives an overview. No command has parts. -/
def helpFor : List String → Refusal
  | [] => ⟨.help true, .overview⟩
  | [arg] =>
    match CommandName.all.find? (·.text = arg) with
    | some name => ⟨.help true, .command name⟩
    | none => if arg = "help" then ⟨.help true, .help⟩ else ⟨.usage, .overview⟩
  | _ => ⟨.usage, .overview⟩

def parse (args : List String) : Except Refusal Command := do
  match ← (outerGrammar.read true none .nothing args).mapError (⟨·, .overview⟩) with
  | (_, []) => throw ⟨.usage, .overview⟩
  | (_, arg :: rest) =>
    if arg = "help" then throw (helpFor rest)
    match CommandName.all.find? (·.text = arg) with
    | none => throw ⟨.usage, .overview⟩
    | some name =>
      let inner := do ofArguments name (← name.grammar.read false none .nothing rest).1
      inner.mapError (⟨·, .command name⟩)

end Command

end SealedContainer
