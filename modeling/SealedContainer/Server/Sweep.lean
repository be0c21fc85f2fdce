import SealedContainer.Config.Toml
import SealedContainer.Server.Api

/-!
The start of a server with its configuration, up to where it would wait for requests, and the
removal of expired capsules, once every period. A sweep that fails is left for the next one.
-/

namespace SealedContainer

structure Startup where
  server : CapsuleServer
  listen : String
  /-- The time between two sweeps, unless they are switched off. -/
  period : Option Duration

namespace Config

def startup (c : Config) : Except ConfigError Startup := do
  let policy ← c.capsules.policy
  let cleanup := c.capsules.cleanup
  let period ← if cleanup.enabled then some <$> cleanup.interval else pure none
  return ⟨⟨c.server.mode, policy, ⟨c.server.trustIdentity, c.server.identityHeader⟩⟩,
    c.server.listen, period⟩

end Config

namespace Startup

def bindingFailure (s : Startup) : String := "binding " ++ s.listen

end Startup

namespace ServerState

def sweep (state : ServerState) (now : Instant) : ServerState × Nat :=
  match state.storage.deleteExpired now with
  | (storage, .ok n) =>
    let metrics := { state.metrics with expired := state.metrics.expired + n }
    (⟨storage, metrics⟩, n)
  | (storage, .error _) => ({ state with storage }, 0)

end ServerState

namespace Sweep

/-- How many sweeps fall due from one second up to another. The first is due after one period. -/
def due (period start stop : Nat) : Nat := (stop - 1) / period - (start - 1) / period

def repeated (now : Instant) : Nat → ServerState → ServerState
  | 0, state => state
  | n + 1, state => repeated now n (state.sweep now).1

end Sweep

end SealedContainer
