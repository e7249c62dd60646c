import EditorBridge.Broker.Run
import EditorBridge.Hub.Route
import EditorBridge.Main
import EditorBridge.Sse.Event
import EditorBridge.Tool.Probe
import EditorBridge.Transport.Run
import EditorBridge.Proofs.Broker.Ids
import EditorBridge.Proofs.Broker.Step
import EditorBridge.Proofs.Broker.Course
import EditorBridge.Proofs.Broker.Resolution
import EditorBridge.Hub.Schedule
import EditorBridge.Proofs.Transport
import EditorBridge.Proofs.Tool
import EditorBridge.Proofs.Hub.Step
import EditorBridge.Proofs.Hub.Request
import EditorBridge.Proofs.Hub.Schedule
import EditorBridge.Proofs.Hub.Binding
import EditorBridge.Proofs.Broker.Holding
import EditorBridge.Proofs.Broker.Pending
import EditorBridge.Proofs.Hub.Course
import EditorBridge.Proofs.Hub.Commands
import EditorBridge.Proofs.Hub.Settling
import EditorBridge.Proofs.Text.Utf8
import EditorBridge.Proofs.Json.Printer
import EditorBridge.Proofs.Sse
import EditorBridge.Proofs.Hub.Transports
import EditorBridge.Proofs.Hub.Stream
import EditorBridge.Transport.Schedule
import EditorBridge.Proofs.Transport.Frames
import EditorBridge.Proofs.Hub.Scene
import EditorBridge.Proofs.Hub.Post
import EditorBridge.Proofs.Broker.Strangers
import EditorBridge.Proofs.Hub.Turnover
import EditorBridge.Proofs.Hub.Removal
import EditorBridge.Proofs.Hub.Effect
import EditorBridge.Proofs.Hub.Refusal
import EditorBridge.Proofs.Hub.Plugin
import EditorBridge.Proofs.Hub.Lifecycle
import EditorBridge.Proofs.Transport.Closing
import EditorBridge.Proofs.Hub.Lines
import EditorBridge.Proofs.Hub.Landing
import EditorBridge.Proofs.Hub.Isolation
import EditorBridge.Proofs.Transport.Once
import EditorBridge.Proofs.Json.Members
import EditorBridge.Proofs.Json.Reader
import EditorBridge.Proofs.Rpc.Frame
import EditorBridge.Proofs.Json.Tokens
import EditorBridge.Proofs.Json.ReadBack
import EditorBridge.Proofs.Rpc.Message
import EditorBridge.Proofs.Json.TextRecord
import EditorBridge.Proofs.Config
import EditorBridge.Proofs.Json.WrittenRecord
import EditorBridge.Snapshot.History
import EditorBridge.Proofs.Snapshot.Election
import EditorBridge.Proofs.Snapshot.History
import EditorBridge.Proofs.Snapshot.Freshness
import EditorBridge.Proofs.Hub.Ending
import EditorBridge.Proofs.Hub.Sweep
import EditorBridge.Hub.Operation
import EditorBridge.Proofs.Hub.Operation
import EditorBridge.Proofs.Hub.Idleness
import EditorBridge.Text.LineEnds
import EditorBridge.Proofs.Text.Lines
import EditorBridge.Proofs.Sse.Payload
import EditorBridge.Proofs.Broker.Deadline
import EditorBridge.Proofs.Broker.Distinct
import EditorBridge.Proofs.Tool.Timeout
import EditorBridge.Tool.Registration
import EditorBridge.Proofs.Tool.Registry
import EditorBridge.Proofs.Json.Decode
import EditorBridge.Proofs.Wire
import EditorBridge.Proofs.Hub.Retooling
import EditorBridge.Proofs.Hub.Discretion
