import SealedContainer.Command
import SealedContainer.Command.Run

/-!
What the command line says about itself, and the outcome of a whole command line.
-/

namespace SealedContainer

namespace Command

def version : String := "cdoc2 0.3.0\n"

namespace Topic

def hasSummary : Topic → Bool
  | overview => true
  | command .create => true
  | _ => false

def usageLine : Topic → String
  | overview => "Usage: cdoc2 [OPTIONS] <COMMAND>\n"
  | command .keygen => "Usage: cdoc2 keygen [OPTIONS] --private <PRIVATE> --public <PUBLIC>\n"
  | command .create => "Usage: cdoc2 create --file <FILE> --pubkey <PUBKEYS> <INPUT>\n"
  | command .decrypt => "Usage: cdoc2 decrypt --file <FILE> --key <KEY> --output <OUTPUT>\n"
  | command .info => "Usage: cdoc2 info --file <FILE>\n"
  | help => "Usage: cdoc2 help [COMMAND]...\n"

def summary : Topic → String
  | overview => "cdoc2 encrypted container tool"
  | command .keygen => "Generate an EC key pair"
  | command .create => "Encrypt a file into a container"
  | command .decrypt => "Decrypt a container"
  | command .info => "Show the recipients of a container"
  | help => "Print this message or the help of the given subcommand(s)"

def purpose : Topic → String
  | overview => "cdoc2: create, inspect and decrypt CDOC2 containers with EC recipient keys"
  | command .create => summary (command .create) ++ "\n\n" ++
      "A fresh file master key and sender key pair are generated for every container; " ++
      "all recipients must use the same curve."
  | topic => topic.summary

end Topic

structure HelpEntry where
  form : String
  text : String
  /-- Where its value comes from if it is not given. -/
  notes : List String
  deriving DecidableEq, Repr

namespace HelpEntry

def full (e : HelpEntry) : String :=
  let margin := "".pushn ' ' 10
  let notes := if e.notes = [] then [] else margin :: e.notes.map (margin ++ ·)
  "\n".intercalate (("  " ++ e.form) :: (margin ++ e.text) :: notes)

def brief (width : Nat) (e : HelpEntry) : String :=
  "  " ++ e.form.pushn ' ' (width + 2 - e.form.length) ++ " ".intercalate (e.text :: e.notes)

def section? (heading : String) (inFull : Bool) (entries : List HelpEntry) : Option String :=
  let width := (entries.map (·.form.length)).foldl max 0
  let body :=
    if inFull then "\n\n".intercalate (entries.map full)
    else "\n".intercalate (entries.map (brief width))
  if entries = [] then none else some (heading ++ ":\n" ++ body ++ "\n")

end HelpEntry

namespace Topic

def commands : Topic → List HelpEntry
  | overview =>
    CommandName.all.map (fun name => ⟨name.text, (command name).summary, []⟩) ++
      [⟨"help", help.summary, []⟩]
  | _ => []

def operands : Topic → List HelpEntry
  | command .create => [⟨"<INPUT>", "Plaintext input", []⟩]
  | help => [⟨"[COMMAND]...", "Print help for the subcommand(s)", []⟩]
  | _ => []

def ownOptions (logLevel : String) : Topic → List HelpEntry
  | overview =>
    [⟨"    --log <LOG>", "Log level (trace, debug, info, warn, error)",
      [s!"[env: CDOC2_LOG={logLevel}]", "[default: warn]"]⟩]
  | command .keygen =>
    [⟨"    --curve <CURVE>", "Curve name (secp384r1, secp256r1 or an alias such as P-384)",
      [s!"[default: {defaultCurve}]"]⟩,
     ⟨"    --private <PRIVATE>", "Output file for the PKCS#8 private key", []⟩,
     ⟨"    --public <PUBLIC>", "Output file for the SPKI public key", []⟩]
  | command .create =>
    [⟨"-f, --file <FILE>", "Output container path", []⟩,
     ⟨"    --pubkey <PUBKEYS>", "Recipient public key PEM (repeatable)", []⟩]
  | command .decrypt =>
    [⟨"-f, --file <FILE>", "Input container path", []⟩,
     ⟨"-k, --key <KEY>", "Recipient private key PEM (PKCS#8 or SEC1)", []⟩,
     ⟨"-o, --output <OUTPUT>", "Plaintext output path", []⟩]
  | command .info => [⟨"-f, --file <FILE>", "Input container path", []⟩]
  | help => []

def options (logLevel : String) (inFull : Bool) (topic : Topic) : List HelpEntry :=
  let hint :=
    if !topic.hasSummary then "" else if inFull then " (see a summary with '-h')"
    else " (see more with '--help')"
  match topic with
  | help => []
  | overview =>
    overview.ownOptions logLevel ++
      [⟨"-h, --help", "Print help" ++ hint, []⟩, ⟨"-V, --version", "Print version", []⟩]
  | command name =>
    (command name).ownOptions logLevel ++ [⟨"-h, --help", "Print help" ++ hint, []⟩]

def text (logLevel : String) (full : Bool) (topic : Topic) : String :=
  let inFull := full && topic.hasSummary
  let sections := [HelpEntry.section? "Commands" false topic.commands,
    HelpEntry.section? "Arguments" inFull topic.operands,
    HelpEntry.section? "Options" inFull (topic.options logLevel inFull)]
  let purpose := if inFull then topic.purpose else topic.summary
  "\n".intercalate ((purpose ++ "\n") :: topic.usageLine :: sections.filterMap id)

end Topic

def refuse (logLevel : String) (r : Refusal) : Outcome :=
  match r.halt with
  | .help full => .success (r.topic.text logLevel full)
  | .version => .success version
  | .usage => ⟨2, "", r.topic.usageLine ++ "\nFor more information, try '--help'.\n"⟩

def execute (args : List String) (logLevel : String) (entropy : Entropy) (t : FileTree) :
    FileTree × Outcome :=
  match parse args with
  | .error r => (t, refuse logLevel r)
  | .ok command =>
    match command.run entropy t with
    | (t, .ok output) => (t, .success output)
    | (t, .error r) => (t, .failure r)

end Command

end SealedContainer
