import SealedContainer.Config
import SealedContainer.Toml.Parser
import SealedContainer.Toml

/-!
Configurations as TOML documents. What a document does not say has its standard value.
-/

namespace SealedContainer

namespace Toml

/--
The fields of a record: the entries of a table, or the items of an array in the order of `names`.
A date passes for a record that says nothing.
-/
def fields? (names : List String) : Toml → Option Entries
  | table _ es => some es
  | array items => some (names.zip items)
  | tables all => some (names.zip (all.map (table .header)))
  | moment => some []
  | _ => none

def text? : Toml → Option String
  | string text => some text
  | _ => none

def flag? : Toml → Option Bool
  | boolean value => some value
  | _ => none

def isEmpty : Toml → Bool
  | array items => items.isEmpty
  | table _ es => es.isEmpty
  | tables all => all.isEmpty
  | _ => false

def choice? {α : Type} (all : List α) (name : α → String) : Toml → Option α
  | string text => all.find? (name · = text)
  | table form es =>
    match es with
    | (key, value) :: more =>
      let single := more.isEmpty || !(form == .inline || form == .inlineWay)
      if single && value.isEmpty then all.find? (name · = key) else none
    | [] => none
  | _ => none

def field? {α : Type} (es : Entries) (name : String) (standard : α) (read : Toml → Option α) :
    Option α :=
  match es.lookup name with
  | some value => read value
  | none => some standard

end Toml

namespace ServerConfig

def fieldNames : List String :=
  ["listen", "mode", "metrics_addr", "log_level", "log_format", "trust_forwarded_identity",
    "forwarded_identity_header"]

def ofToml? (value : Toml) : Option ServerConfig := do
  let es ← value.fields? fieldNames
  let d := standard
  return {
    listen := ← Toml.field? es "listen" d.listen Toml.text?
    mode := ← Toml.field? es "mode" d.mode (Toml.choice? ServerMode.all ServerMode.name)
    metricsAddress := ← Toml.field? es "metrics_addr" d.metricsAddress fun v => some <$> v.text?
    logLevel := ← Toml.field? es "log_level" d.logLevel Toml.text?
    logFormat := ← Toml.field? es "log_format" d.logFormat Toml.text?
    trustIdentity := ← Toml.field? es "trust_forwarded_identity" d.trustIdentity Toml.flag?
    identityHeader := ← Toml.field? es "forwarded_identity_header" d.identityHeader Toml.text? }

def entries (c : ServerConfig) : List (String × String) :=
  let metrics := match c.metricsAddress with
    | some address => [("metrics_addr", Toml.printString address)]
    | none => []
  [("listen", Toml.printString c.listen), ("mode", Toml.printString c.mode.name)] ++ metrics ++
  [("log_level", Toml.printString c.logLevel), ("log_format", Toml.printString c.logFormat),
    ("trust_forwarded_identity", Toml.printBool c.trustIdentity),
    ("forwarded_identity_header", Toml.printString c.identityHeader)]

end ServerConfig

namespace CleanupConfig

def fieldNames : List String := ["enabled", "schedule"]

def ofToml? (value : Toml) : Option CleanupConfig := do
  let es ← value.fields? fieldNames
  return ⟨← Toml.field? es "enabled" standard.enabled Toml.flag?,
    ← Toml.field? es "schedule" standard.schedule Toml.text?⟩

def entries (c : CleanupConfig) : List (String × String) :=
  [("enabled", Toml.printBool c.enabled), ("schedule", Toml.printString c.schedule)]

end CleanupConfig

namespace CapsuleConfig

def fieldNames : List String :=
  ["default_expiration_duration", "max_expiration_duration", "cleanup"]

def ofToml? (value : Toml) : Option CapsuleConfig := do
  let es ← value.fields? fieldNames
  return ⟨← Toml.field? es "default_expiration_duration" standard.defaultDuration Toml.text?,
    ← Toml.field? es "max_expiration_duration" standard.maxDuration Toml.text?,
    ← Toml.field? es "cleanup" standard.cleanup CleanupConfig.ofToml?⟩

def entries (c : CapsuleConfig) : List (String × String) :=
  [("default_expiration_duration", Toml.printString c.defaultDuration),
    ("max_expiration_duration", Toml.printString c.maxDuration)]

end CapsuleConfig

namespace StorageConfig

def fieldNames : List String := ["backend", "path"]

def ofToml? (value : Toml) : Option StorageConfig := do
  let es ← value.fields? fieldNames
  return ⟨← Toml.field? es "backend" standard.backend
      (Toml.choice? StorageBackend.all StorageBackend.name),
    ← Toml.field? es "path" standard.path Toml.text?⟩

def entries (c : StorageConfig) : List (String × String) :=
  [("backend", Toml.printString c.backend.name), ("path", Toml.printString c.path)]

end StorageConfig

namespace Config

def ofEntries? (es : Toml.Entries) : Option Config := do
  return ⟨← Toml.field? es "server" .standard ServerConfig.ofToml?,
    ← Toml.field? es "key_capsule" .standard CapsuleConfig.ofToml?,
    ← Toml.field? es "storage" .standard StorageConfig.ofToml?⟩

def parse (text : String) : Except ConfigError Config :=
  match (Toml.parse text).bind ofEntries? with
  | none => .error .notToml
  | some c => do
    c.validate
    return c

def print (c : Config) : String :=
  "\n".intercalate [
    Toml.printTable "server" c.server.entries,
    Toml.printTable "key_capsule" c.capsules.entries,
    Toml.printTable "key_capsule.cleanup" c.capsules.cleanup.entries,
    Toml.printTable "storage" c.storage.entries]

end Config

end SealedContainer
