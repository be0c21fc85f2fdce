/-!
The arguments of a command: options that take a value, and values without an option.
-/

namespace SealedContainer

structure Flag where
  name : String
  letter : Option Char
  /-- Whether it may be given more than once. -/
  repeated : Bool
  empty : Bool
  deriving DecidableEq, Repr

inductive Halt where
  | usage
  | help (full : Bool)
  | version
  deriving DecidableEq, Repr

structure Grammar where
  flags : List Flag
  operands : Nat
  versioned : Bool
  deriving DecidableEq, Repr

structure Arguments where
  options : List (String × String)
  operands : List String
  deriving DecidableEq, Repr

namespace Arguments

def nothing : Arguments := ⟨[], []⟩

def values (a : Arguments) (name : String) : List String :=
  (a.options.filter (·.1 = name)).map (·.2)

def value? (a : Arguments) (name : String) : Option String := (a.values name).head?

def required (a : Arguments) (name : String) : Except Halt String :=
  match a.value? name with
  | some value => .ok value
  | none => .error .usage

def addOption (a : Arguments) (flag : Flag) (value : String) : Except Halt Arguments :=
  if value.isEmpty && !flag.empty then .error .usage
  else if !flag.repeated && (a.value? flag.name).isSome then .error .usage
  else .ok { a with options := a.options ++ [(flag.name, value)] }

def addOperand (g : Grammar) (a : Arguments) (value : String) : Except Halt Arguments :=
  if value.isEmpty || g.operands ≤ a.operands.length then .error .usage
  else .ok { a with operands := a.operands ++ [value] }

end Arguments

inductive ArgumentForm where
  /-- Two dashes, behind which there are no more options. -/
  | terminator
  /-- A long option, and the value behind the equals sign if there is one. -/
  | long (name : String) (value : Option String)
  /-- A short option, and what stands directly behind it. -/
  | short (letter : Char) (rest : List Char)
  | plain

namespace ArgumentForm

def of (arg : String) : ArgumentForm :=
  match arg.toList with
  | ['-', '-'] => terminator
  | '-' :: '-' :: rest =>
    let name := rest.takeWhile (· != '=')
    let value := rest.drop name.length
    long (String.ofList name) (if value = [] then none else some (String.ofList value.tail))
  | '-' :: letter :: rest => short letter rest
  | _ => plain

end ArgumentForm

namespace Grammar

def option (g : Grammar) : ArgumentForm → Except Halt (Flag × Option String)
  | .long name value =>
    if name = "help" ∧ value = none then .error (.help true)
    else if name = "version" ∧ value = none ∧ g.versioned then .error .version
    else
      match g.flags.find? (·.name = name) with
      | some flag => .ok (flag, value)
      | none => .error .usage
  | .short letter rest =>
    if letter = 'h' then .error (.help false)
    else if letter = 'V' ∧ g.versioned then .error .version
    else
      match g.flags.find? (·.letter = some letter) with
      | some flag =>
        let value := match rest with
          | '=' :: value => some value
          | [] => none
          | value => some value
        .ok (flag, value.map String.ofList)
      | none => .error .usage
  | .terminator | .plain => .error .usage

/--
Reads arguments, one after the other, up to the first that is a value for which there is no option
if `stop` says so. Gives what was found, and that argument with all behind it.
-/
def read (g : Grammar) (stop : Bool) :
    (pending : Option Flag) → Arguments → List String → Except Halt (Arguments × List String)
  | none, a, [] => .ok (a, [])
  | some _, _, [] => .error .usage
  | pending, a, arg :: rest =>
    match ArgumentForm.of arg, pending with
    | .plain, some flag => do read g stop none (← a.addOption flag arg) rest
    | .plain, none =>
      if stop then .ok (a, arg :: rest) else do read g stop none (← a.addOperand g arg) rest
    | _, some _ => .error .usage
    | .terminator, none => do
      if stop ∧ rest ≠ [] then throw .usage
      return (← rest.foldlM (Arguments.addOperand g) a, [])
    | form, none => do
      match ← g.option form with
      | (flag, some value) => read g stop none (← a.addOption flag value) rest
      | (flag, none) => read g stop (some flag) a rest

end Grammar

end SealedContainer
