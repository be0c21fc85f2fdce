import SealedContainer.Capsule
import SealedContainer.Duration.Text

/-!
The configuration of a capsule server, and what makes one valid.
-/

namespace SealedContainer

inductive ServerMode where
  | put
  | get
  deriving DecidableEq, Repr

def ServerMode.name : ServerMode → String
  | put => "put"
  | get => "get"

def ServerMode.all : List ServerMode := [put, get]

inductive StorageBackend where
  | memory
  | rocksdb
  deriving DecidableEq, Repr

def StorageBackend.name : StorageBackend → String
  | memory => "memory"
  | rocksdb => "rocksdb"

def StorageBackend.all : List StorageBackend := [memory, rocksdb]

structure ServerConfig where
  listen : String
  mode : ServerMode
  metricsAddress : Option String
  logLevel : String
  logFormat : String
  /-- Whether to believe the header that names the client. -/
  trustIdentity : Bool
  identityHeader : String
  deriving DecidableEq, Repr

structure CleanupConfig where
  enabled : Bool
  /-- The time between two sweeps, as a duration text. -/
  schedule : String
  deriving DecidableEq, Repr

structure CapsuleConfig where
  /-- How long capsules are kept, as duration texts. -/
  defaultDuration : String
  maxDuration : String
  cleanup : CleanupConfig
  deriving DecidableEq, Repr

structure StorageConfig where
  backend : StorageBackend
  path : String
  deriving DecidableEq, Repr

structure Config where
  server : ServerConfig
  capsules : CapsuleConfig
  storage : StorageConfig
  deriving DecidableEq, Repr

inductive ConfigError where
  | notToml
  | duration (cause : DurationError)
  | defaultAboveMax (default max : String)
  | schedule (text : String)
  | mode (text : String)
  deriving DecidableEq, Repr

def ConfigError.message (e : ConfigError) : String :=
  "config error: " ++ match e with
    | notToml => "invalid TOML"
    | duration cause => cause.message
    | defaultAboveMax default max =>
      s!"default_expiration_duration ({default}) exceeds max_expiration_duration ({max})"
    | schedule text => s!"cleanup schedule must be positive, got {text}"
    | mode text => s!"unknown server mode '{text}' (expected put or get)"

def ServerMode.parse (text : String) : Except ConfigError ServerMode :=
  let lower := String.ofList (text.toList.map Char.toLower)
  match all.find? (·.name = lower) with
  | some mode => .ok mode
  | none => .error (.mode lower)

namespace ServerConfig

def standard : ServerConfig where
  listen := "0.0.0.0:8443"
  mode := .put
  metricsAddress := some "127.0.0.1:9100"
  logLevel := "info"
  logFormat := "json"
  trustIdentity := false
  identityHeader := "x-client-public-key"

end ServerConfig

def CleanupConfig.standard : CleanupConfig := ⟨true, "PT24H"⟩

def CapsuleConfig.read (text : String) : Except ConfigError Duration :=
  (Duration.parse text).mapError .duration

def CleanupConfig.interval (c : CleanupConfig) : Except ConfigError Duration :=
  CapsuleConfig.read c.schedule

namespace CapsuleConfig

def standard : CapsuleConfig := ⟨"P1095D", "P1825D", .standard⟩

def policy (c : CapsuleConfig) : Except ConfigError ExpiryPolicy := do
  return ⟨← read c.defaultDuration, ← read c.maxDuration⟩

end CapsuleConfig

def StorageConfig.standard : StorageConfig := ⟨.memory, "/var/lib/cdoc2/capsules"⟩

namespace Config

def standard : Config := ⟨.standard, .standard, .standard⟩

def validate (c : Config) : Except ConfigError Unit := do
  let policy ← c.capsules.policy
  if policy.max < policy.default then
    throw (.defaultAboveMax c.capsules.defaultDuration c.capsules.maxDuration)
  let interval ← c.capsules.cleanup.interval
  if interval ≤ Duration.zero then throw (.schedule c.capsules.cleanup.schedule)

end Config

end SealedContainer
