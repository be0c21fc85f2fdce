import SealedContainer.Command.Arguments
import SealedContainer.Command.Report
import SealedContainer.Server.Sweep

/-!
The command line of the capsule server: where its configuration is, and what of it to override.
-/

namespace SealedContainer

namespace Config

def standardPath : String := "/etc/cdoc2/config.toml"

def load (t : FileTree) (path : String) : Except Report (Option Config) :=
  match t.find path with
  | .error _ => .ok none
  | .ok _ =>
    match t.readText path with
    | .error e => .error ((Report.ofFileError e).within s!"reading config {path}")
    | .ok text =>
      match parse text with
      | .error e => .error ⟨s!"parsing config {path}", [e.message]⟩
      | .ok c => .ok (some c)

end Config

namespace Startup

def addressFault? (address : String) : Option String :=
  match (address.splitOn ":").reverse with
  | service :: _ :: _ =>
    let digits := Decimal.run (Decimal.sign service.toList).2
    if digits.1 = [] ∨ digits.2 ≠ [] ∨ service.startsWith "-" ∨ 65536 ≤ Decimal.value digits.1 then
      some "invalid port value"
    else none
  | _ => some "invalid socket address"

end Startup

structure ServerCommand where
  configPath : String
  mode : Option ServerMode
  deriving DecidableEq, Repr

namespace ServerCommand

def grammar : Grammar where
  flags := [⟨"config", some 'c', false, false⟩, ⟨"mode", none, false, true⟩,
    ⟨"log", none, false, true⟩, ⟨"log-format", none, false, true⟩]
  operands := 0
  versioned := true

def oneOf {α : Type} (a : Arguments) (name : String) (words : List (String × α)) :
    Except Halt (Option α) :=
  match a.value? name with
  | none => .ok none
  | some value =>
    match words.lookup value with
    | some found => .ok (some found)
    | none => .error .usage

def parse (args : List String) : Except Halt ServerCommand := do
  let (a, _) ← grammar.read false none .nothing args
  let mode ← oneOf a "mode" (ServerMode.all.map fun mode => (mode.name, mode))
  discard (oneOf a "log-format" [("json", ()), ("text", ())])
  return ⟨(a.value? "config").getD Config.standardPath, mode⟩

def start (command : ServerCommand) (t : FileTree) : Except Report Startup := do
  let found := (← Config.load t command.configPath).getD .standard
  let mode := command.mode.getD found.server.mode
  let c : Config := { found with server := { found.server with mode } }
  let startup ← c.startup.mapError fun e => ⟨e.message, []⟩
  match Startup.addressFault? startup.listen with
  | some fault => throw ⟨startup.bindingFailure, [fault]⟩
  | none => return startup

def execute (args : List String) (t : FileTree) : Except Startup Outcome :=
  match parse args with
  | .error .usage => .ok ⟨2, "", "Usage: cdoc2-capsule-server [OPTIONS]\n"⟩
  | .error (.help _) =>
    .ok (.success "cdoc2 key capsule server\n\nUsage: cdoc2-capsule-server [OPTIONS]\n")
  | .error .version => .ok (.success "cdoc2-capsule-server 0.3.0\n")
  | .ok command =>
    match command.start t with
    | .error r => .ok (.failure r)
    | .ok startup => .error startup

end ServerCommand

end SealedContainer
