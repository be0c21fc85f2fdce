import SealedContainer.Duration.Text
import SealedContainer.Bytes.Hex
import SealedContainer.Key.Private
import SealedContainer.Container
import SealedContainer.Instant.Text
import SealedContainer.Json.Parser
import SealedContainer.Json
import SealedContainer.Capsule.Json
import SealedContainer.Capsule.Service
import SealedContainer.Toml.Parser
import SealedContainer.Toml
import SealedContainer.Config.Toml
import SealedContainer.Server.Sweep
import SealedContainer.Command.Help
import SealedContainer.Server.Command
import SealedContainer.Main
import SealedContainer.Proofs.Bytes
import SealedContainer.Proofs.Key.Codec
import SealedContainer.Proofs.Key.Wrapping
import SealedContainer.Proofs.Payload
import SealedContainer.Proofs.Container.Frame
import SealedContainer.Proofs.Container.Recipient
import SealedContainer.Proofs.Container.Acceptance
import SealedContainer.Proofs.Header.Place
import SealedContainer.Proofs.Header.Table
import SealedContainer.Proofs.Header.Check
import SealedContainer.Proofs.Header.Contents
import SealedContainer.Proofs.Header.Verified
import SealedContainer.Proofs.Header.Layout
import SealedContainer.Proofs.Header.Written
import SealedContainer.Proofs.Header.Safety
import SealedContainer.Proofs.Header.Oblivious
import SealedContainer.Proofs.Header.Part
import SealedContainer.Proofs.Container.Envelope
import SealedContainer.Proofs.Container.RoundTrip
import SealedContainer.Proofs.Container.Precedence
import SealedContainer.Proofs.Header.KeyRecord
import SealedContainer.Proofs.Header.Change
import SealedContainer.Proofs.Container.Tampering
import SealedContainer.Proofs.Header.Access
import SealedContainer.Proofs.Container.Safety
import SealedContainer.Proofs.Capsule.Keeping
import SealedContainer.Proofs.Http.Field
import SealedContainer.Proofs.Capsule.Calls
import SealedContainer.Proofs.Capsule.Interleaving
import SealedContainer.Proofs.Asn1.Der
import SealedContainer.Proofs.Key.Rsa
import SealedContainer.Proofs.Capsule.Release
import SealedContainer.Proofs.Header.Schema
import SealedContainer.Proofs.Capsule.Retrieval
import SealedContainer.Proofs.Capsule.Retries
import SealedContainer.Proofs.Server.Requests
import SealedContainer.Proofs.Server.Posting
import SealedContainer.Proofs.Server.Privacy
import SealedContainer.Proofs.Server.Runs
import SealedContainer.Proofs.Container.Framing
import SealedContainer.Proofs.Container.ReadBack
import SealedContainer.Proofs.Container.Writing
import SealedContainer.Proofs.Container.Limit
import SealedContainer.Proofs.Bytes.Base64
import SealedContainer.Proofs.Server.Identity
import SealedContainer.Proofs.Server.Modes
import SealedContainer.Proofs.Key.Point
import SealedContainer.Proofs.Asn1.Form
import SealedContainer.Proofs.Key.Canonical
import SealedContainer.Proofs.Curve.Prime
import SealedContainer.Proofs.Key.Spelling
import SealedContainer.Proofs.Instant.Text
import SealedContainer.Proofs.Json.Text
import SealedContainer.Proofs.Capsule.Json
import SealedContainer.Proofs.Instant.Zone
import SealedContainer.Proofs.Duration.Form
import SealedContainer.Proofs.Duration.Value
import SealedContainer.Proofs.Duration.Words
import SealedContainer.Proofs.Capsule.Expiry
import SealedContainer.Proofs.Curve.Inverse
import SealedContainer.Proofs.Curve.Group
import SealedContainer.Proofs.Curve.Order
import SealedContainer.Proofs.Key.Pair
import SealedContainer.Proofs.Key.Private
import SealedContainer.Proofs.Toml.Quoted
import SealedContainer.Proofs.Toml.Document
import SealedContainer.Proofs.Config.Toml
import SealedContainer.Proofs.FileTree
import SealedContainer.Proofs.Command.Create
import SealedContainer.Proofs.Key.Agreement
import SealedContainer.Proofs.Key.Purpose
import SealedContainer.Proofs.Hash.Parts
import SealedContainer.Proofs.Command.Failure
