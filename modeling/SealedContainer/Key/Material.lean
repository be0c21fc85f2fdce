import SealedContainer.Key.Secret
import SealedContainer.Key.Public
import SealedContainer.Text.Hidden

/-!
What a recipient holds: a public key, a shared secret or a password, together with a label.
-/

namespace SealedContainer

inductive KeyMaterial where
  | publicKey (key : PublicKey) (label : String)
  | secret (key : Bytes) (label : String)
  /-- The key derived from a password, and the salt that it was derived with. -/
  | password (key : Bytes) (label : String) (salt : Bytes)

namespace KeyMaterial

def drawnSaltSize : Nat := 32

def ofSecret (key : Bytes) (label : String) : Except CryptoError KeyMaterial :=
  if key = [] then throw .emptySecret else return .secret key label

def ofPassword (text label : String) (salt : Bytes) (cost : Argon2id.Cost) :
    Except CryptoError KeyMaterial := do
  return .password (← passwordKey text label salt cost) label salt

def origin : KeyMaterial → String
  | publicKey .. => "public key"
  | secret .. => "shared secret"
  | password .. => "password"

def label : KeyMaterial → String
  | publicKey _ label | secret _ label | password _ label _ => label

def publicKey? : KeyMaterial → Option PublicKey
  | publicKey key _ => some key
  | _ => none

def secret? : KeyMaterial → Option Bytes
  | secret key _ | password key _ _ => some key
  | publicKey .. => none

def salt? : KeyMaterial → Option Bytes
  | password _ _ salt => some salt
  | _ => none

def wiped : KeyMaterial → KeyMaterial
  | publicKey key label => publicKey key label
  | secret _ label => secret [] label
  | password key label salt => password (key.map fun _ => 0) label salt

def shown? (m : KeyMaterial) : Option String :=
  let text (origin : String) : String :=
    "EncryptionKeyMaterial \x7b origin: " ++ origin ++ ", label: " ++ Text.quoted m.label ++
      ", key: \"[REDACTED]\" \x7d"
  match m with
  | publicKey .. => none
  | secret .. => some (text "SharedSecret")
  | password .. => some (text "Password")

def ecKey : KeyMaterial → Except CryptoError EcPublicKey
  | publicKey (.ec key) _ => return key
  | publicKey (.rsa _) label => throw (.foreignKey label .rsa)
  | secret _ label => throw (.foreignKey label .sharedSecret)
  | password _ label _ => throw (.foreignKey label .password)

end KeyMaterial

end SealedContainer
