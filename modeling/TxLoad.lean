import TxLoad.Account
import TxLoad.Binary64.Basic
import TxLoad.Binary64.Decimal
import TxLoad.Binary64.Reader
import TxLoad.Bytes
import TxLoad.CommandLine.Invocation
import TxLoad.CommandLine.Option
import TxLoad.CommandLine.Scan
import TxLoad.Crypto.Curve
import TxLoad.Crypto.Keccak
import TxLoad.Crypto.Sha256
import TxLoad.Crypto.Signature
import TxLoad.Duration
import TxLoad.Endpoint.Genesis
import TxLoad.Endpoint.Http
import TxLoad.Endpoint.Pool
import TxLoad.Endpoint.Quantity
import TxLoad.Endpoint.Query
import TxLoad.Endpoint.Shape
import TxLoad.Endpoint.Url
import TxLoad.Failure
import TxLoad.Json.Basic
import TxLoad.Json.Printer
import TxLoad.Json.Proper
import TxLoad.Json.Reader
import TxLoad.Main
import TxLoad.Pricing
import TxLoad.Proofs.Binary64.Decimal
import TxLoad.Proofs.Bytes
import TxLoad.Proofs.Endpoint.Genesis
import TxLoad.Proofs.Endpoint.Interleaving
import TxLoad.Proofs.Endpoint.Outage
import TxLoad.Proofs.Endpoint.Replay
import TxLoad.Proofs.Endpoint.Reported
import TxLoad.Proofs.Endpoint.Rotation
import TxLoad.Proofs.Endpoint.Together
import TxLoad.Proofs.Json.Grammar
import TxLoad.Proofs.Json.Lexeme
import TxLoad.Proofs.Json.Reader
import TxLoad.Proofs.Payload
import TxLoad.Proofs.Rejection
import TxLoad.Proofs.Rlp
import TxLoad.Proofs.Run.Accounting
import TxLoad.Proofs.Run.Action
import TxLoad.Proofs.Run.Builds
import TxLoad.Proofs.Run.Calls
import TxLoad.Proofs.Run.Composition
import TxLoad.Proofs.Run.Counters
import TxLoad.Proofs.Run.Cycles
import TxLoad.Proofs.Run.Decomposition
import TxLoad.Proofs.Run.Dispatch
import TxLoad.Proofs.Run.Firing
import TxLoad.Proofs.Run.Independence
import TxLoad.Proofs.Run.Ledger
import TxLoad.Proofs.Run.Legs
import TxLoad.Proofs.Run.Numbers
import TxLoad.Proofs.Run.Opening
import TxLoad.Proofs.Run.Outcome
import TxLoad.Proofs.Run.Preparation
import TxLoad.Proofs.Run.Price
import TxLoad.Proofs.Run.Progress
import TxLoad.Proofs.Run.Ranges
import TxLoad.Proofs.Run.Reservation
import TxLoad.Proofs.Run.Span
import TxLoad.Proofs.Run.Submission
import TxLoad.Proofs.Run.Task
import TxLoad.Proofs.Run.Verdict
import TxLoad.Proofs.Settings.Acceptance
import TxLoad.Proofs.Settings.Amount
import TxLoad.Proofs.Settings.Blank
import TxLoad.Proofs.Settings.Placeholders
import TxLoad.Proofs.Settings.Resolution
import TxLoad.Proofs.Signing
import TxLoad.Proofs.SlotTime
import TxLoad.Proofs.Text.Numeral
import TxLoad.Rejection
import TxLoad.Rlp
import TxLoad.Run.Batch
import TxLoad.Run.Course
import TxLoad.Run.Network
import TxLoad.Run.Plan
import TxLoad.Run.Submission
import TxLoad.Run.Timetable
import TxLoad.Run.Verdict
import TxLoad.Run.World
import TxLoad.Session
import TxLoad.Settings.Draft
import TxLoad.Settings.File
import TxLoad.Settings.Resolution
import TxLoad.Settings.Substitution
import TxLoad.Settings.Units
import TxLoad.Settings.VariableFile
import TxLoad.SlotTime
import TxLoad.Telemetry.Exposition
import TxLoad.Telemetry.Filter
import TxLoad.Telemetry.Notice
import TxLoad.Telemetry.Record
import TxLoad.Telemetry.Tally
import TxLoad.Text.Blank
import TxLoad.Text.Caseless
import TxLoad.Text.Digit
import TxLoad.Text.Glyph
import TxLoad.Text.Hex
import TxLoad.Text.Numeral
import TxLoad.Text.Quoted
import TxLoad.Toml.Reader
import TxLoad.Toml.Scalar
import TxLoad.Toml.Tree
import TxLoad.Transfer
import TxLoad.Word
