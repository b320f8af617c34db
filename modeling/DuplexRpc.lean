import DuplexRpc.Cancellation
import DuplexRpc.Codec.Basic
import DuplexRpc.Codec.Menu
import DuplexRpc.Codec.Record
import DuplexRpc.Config
import DuplexRpc.Connection.Fifo
import DuplexRpc.Connection.Inbound
import DuplexRpc.Connection.Outgoing
import DuplexRpc.Connection.State
import DuplexRpc.Connection.Step
import DuplexRpc.Contract
import DuplexRpc.Correlator
import DuplexRpc.Decimal.Binary64
import DuplexRpc.Decimal.Shortest
import DuplexRpc.Dispatcher
import DuplexRpc.Envelope
import DuplexRpc.Framing.Decoder
import DuplexRpc.Framing.Header
import DuplexRpc.Handler.Bench
import DuplexRpc.Handler.Script
import DuplexRpc.Issue
import DuplexRpc.Json.Fault
import DuplexRpc.Json.Numeral
import DuplexRpc.Json.Reader
import DuplexRpc.Json.StringReading
import DuplexRpc.Json.Value
import DuplexRpc.Json.Writer
import DuplexRpc.Message
import DuplexRpc.Outbound
import DuplexRpc.Payload
import DuplexRpc.Registry
import DuplexRpc.ResponseError
import DuplexRpc.Shape
import DuplexRpc.Shape.Matching
import DuplexRpc.Text.Quoted
import DuplexRpc.Text.Utf8
import DuplexRpc.Proofs.Text.Utf8
import DuplexRpc.Proofs.Table
import DuplexRpc.Proofs.Registry
import DuplexRpc.Proofs.Shape
import DuplexRpc.Proofs.Shape.Resolution
import DuplexRpc.Proofs.Shape.Faults
import DuplexRpc.Proofs.Contract
import DuplexRpc.Proofs.Verdict
import DuplexRpc.Proofs.Bench
import DuplexRpc.Proofs.Correlator.Effects
import DuplexRpc.Proofs.Correlator.Linked
import DuplexRpc.Proofs.Correlator.Settlement
import DuplexRpc.Proofs.Correlator.Line
import DuplexRpc.Proofs.Correlator.Ending
import DuplexRpc.Proofs.Correlator.Placement
import DuplexRpc.Proofs.Correlator.Queue
import DuplexRpc.Proofs.Correlator.Overtaking
import DuplexRpc.Proofs.Correlator.Order
import DuplexRpc.Proofs.Correlator.Remembered
import DuplexRpc.Proofs.Correlator.Reordering
import DuplexRpc.Proofs.Correlator.Cost
import DuplexRpc.Proofs.Json.Strings
import DuplexRpc.Proofs.Json.Progress
import DuplexRpc.Proofs.Json.Numerals
import DuplexRpc.Proofs.Json.Rereading
import DuplexRpc.Proofs.Json.Members
import DuplexRpc.Proofs.Json.Exact
import DuplexRpc.Proofs.Json.Ordered
import DuplexRpc.Proofs.Payload
import DuplexRpc.Proofs.UnionTree
import DuplexRpc.Proofs.Issue
import DuplexRpc.Proofs.Messages
import DuplexRpc.Proofs.Payload.Readers
import DuplexRpc.Proofs.Reencoding
import DuplexRpc.Proofs.Routing
import DuplexRpc.Proofs.Validation
import DuplexRpc.Proofs.Plain
import DuplexRpc.Proofs.Framing.Delivery
import DuplexRpc.Proofs.Framing.Header
import DuplexRpc.Proofs.Framing.Cuts
import DuplexRpc.Proofs.Framing.RoundTrip
import DuplexRpc.Proofs.Framing.Search
import DuplexRpc.Proofs.Framing.Passage
import DuplexRpc.Proofs.Framing.Resumption
import DuplexRpc.Proofs.Framing.Buffering
import DuplexRpc.Proofs.Framing.Ending
import DuplexRpc.Proofs.Framing.Grammar
import DuplexRpc.Proofs.Framing.Passes
import DuplexRpc.Proofs.Connection.Moves
import DuplexRpc.Proofs.Connection.Footprint
import DuplexRpc.Proofs.Connection.Answers
import DuplexRpc.Proofs.Connection.Events
import DuplexRpc.Proofs.Connection.Tasks
import DuplexRpc.Proofs.Connection.Phases
import DuplexRpc.Proofs.Connection.Requests
import DuplexRpc.Proofs.Connection.Reports
import DuplexRpc.Proofs.Connection.Stream
import DuplexRpc.Proofs.Connection.Outbox
import DuplexRpc.Proofs.Connection.Calls
import DuplexRpc.Proofs.Connection.InFlight
import DuplexRpc.Proofs.Connection.Latest
import DuplexRpc.Proofs.Connection.Serving
import DuplexRpc.Proofs.Connection.Directions
import DuplexRpc.Proofs.Connection.Notices
import DuplexRpc.Proofs.Connection.Teardown
import DuplexRpc.Proofs.Connection.Wire
import DuplexRpc.Proofs.Connection.Declared
import DuplexRpc.Proofs.Connection.LateAnswers
import DuplexRpc.Proofs.Connection.Budget
import DuplexRpc.Proofs.Connection.Schedule
import DuplexRpc.Proofs.Connection.Cost
import DuplexRpc.Proofs.Connection.Settling
import DuplexRpc.Proofs.Pair.Runs
import DuplexRpc.Proofs.Pair.Account
import DuplexRpc.Proofs.Pair.Calls
