import ScriptHost.SystemError
import ScriptHost.Text.Utf8
import ScriptHost.Text.Decoder
import ScriptHost.Channel
import ScriptHost.Duration
import ScriptHost.Script.Bytes
import ScriptHost.Script.Decimal
import ScriptHost.Seconds
import ScriptHost.CommandLine.Arguments
import ScriptHost.Text.Json
import ScriptHost.Event
import ScriptHost.Console
import ScriptHost.CommandLine.Help
import ScriptHost.Failure
import ScriptHost.Path
import ScriptHost.SearchPath
import ScriptHost.Payload
import ScriptHost.Interpreter
import ScriptHost.Lifecycle
import ScriptHost.Queue
import ScriptHost.Run
import ScriptHost.Settings
import ScriptHost.Engine
import ScriptHost.Log
import ScriptHost.Schedule
import ScriptHost.Script.Files
import ScriptHost.Script.World
import ScriptHost.Instant
import ScriptHost.Shutdown
import ScriptHost.CommandLine.Job
import ScriptHost.Script.Native
import ScriptHost.Script.Value
import ScriptHost.Script.Code
import ScriptHost.Script.Number
import ScriptHost.Script.Token
import ScriptHost.Script.Scanner
import ScriptHost.Script.Compile.Scope
import ScriptHost.Script.Compile.Operand
import ScriptHost.Script.Compile.Operator
import ScriptHost.Script.Compile.Grammar
import ScriptHost.Script.Table
import ScriptHost.Script.Heap
import ScriptHost.Script.Binary
import ScriptHost.Script.Host
import ScriptHost.Script.Library.Format
import ScriptHost.Script.Library.Pack
import ScriptHost.Script.Library.Pattern
import ScriptHost.Script.Library.Strings
import ScriptHost.Script.Library.Streams
import ScriptHost.Script.Library.Modules
import ScriptHost.Script.Library.Output
import ScriptHost.Script.Library.Tables
import ScriptHost.Script.Library.Basic
import ScriptHost.Script.Library.Codepoints
import ScriptHost.Script.Library.Coroutines
import ScriptHost.Script.Library.Inspection
import ScriptHost.Script.Library.Maths
import ScriptHost.Script.Library.System
import ScriptHost.Script.Library.Standard
import ScriptHost.Script.Machine.State
import ScriptHost.Script.Machine.Reach
import ScriptHost.Script.Machine.Names
import ScriptHost.Script.Machine.Calls
import ScriptHost.Script.Machine.Execute
import ScriptHost.Script.Machine.Step
import ScriptHost.Script.Execution
import ScriptHost.Main
import ScriptHost.Script.Probe
import ScriptHost.Session
import ScriptHost.Shared
import ScriptHost.Proofs.Text.Unit
import ScriptHost.Proofs.Text.Lossy
import ScriptHost.Proofs.Text.Chunks
import ScriptHost.Proofs.Text.Tail
import ScriptHost.Proofs.Queue
import ScriptHost.Proofs.Queue.Exchange
import ScriptHost.Proofs.Ensemble
import ScriptHost.Proofs.Ensemble.Moves
import ScriptHost.Proofs.Ensemble.Step
import ScriptHost.Proofs.Ensemble.Sound
import ScriptHost.Proofs.Ensemble.View
import ScriptHost.Proofs.Delivery.Segment
import ScriptHost.Proofs.Delivery.Trail
import ScriptHost.Proofs.Delivery.Order
import ScriptHost.Proofs.Delivery.Grammar
import ScriptHost.Proofs.Channel
import ScriptHost.Proofs.Channel.RoundTrip
import ScriptHost.Proofs.Channel.Endless
import ScriptHost.Proofs.Delivery.Output
import ScriptHost.Proofs.Delivery.Leftover
import ScriptHost.Proofs.Delivery.Lines
import ScriptHost.Proofs.Delivery.Coalescing
import ScriptHost.Proofs.Session
import ScriptHost.Proofs.Control.Conduct
import ScriptHost.Proofs.Control.Rule
import ScriptHost.Proofs.Control.Phases
import ScriptHost.Proofs.Control.Stops
import ScriptHost.Proofs.Control.Sight
import ScriptHost.Proofs.Control.Census
import ScriptHost.Proofs.Control.Idle
import ScriptHost.Proofs.Ensemble.Settings
import ScriptHost.Proofs.Control.Refusals
import ScriptHost.Proofs.Control.Deadline
import ScriptHost.Proofs.Silence.Engines
import ScriptHost.Proofs.Silence.States
import ScriptHost.Proofs.Silence.Unseen
import ScriptHost.Proofs.Control.Apart
import ScriptHost.Proofs.Control.Redundant
import ScriptHost.Proofs.Control.Punctual
import ScriptHost.Proofs.Control.Forgotten
import ScriptHost.Proofs.Delivery.Faults
import ScriptHost.Proofs.Recovery.Queues
import ScriptHost.Proofs.Recovery.Engines
import ScriptHost.Proofs.Recovery.States
import ScriptHost.Proofs.Recovery.Calls
import ScriptHost.Proofs.Recovery.Futures
import ScriptHost.Proofs.Recovery.Attempts
import ScriptHost.Proofs.Worker.Course
import ScriptHost.Proofs.Worker.Protocol
import ScriptHost.Proofs.Worker.Timeline
import ScriptHost.Proofs.Script.Calls
import ScriptHost.Proofs.Script.Lines
import ScriptHost.Proofs.Script.Stops
import ScriptHost.Proofs.Scenario.Execution
import ScriptHost.Proofs.Scenario.Following
import ScriptHost.Proofs.Scenario.Stream
import ScriptHost.Proofs.Scenario.Conclusion
import ScriptHost.Proofs.Scenario.Independence
import ScriptHost.Proofs.Scenario.Solo
import ScriptHost.Proofs.CommandLine.Showing
import ScriptHost.Proofs.CommandLine.Course
import ScriptHost.Proofs.CommandLine.Beginning
import ScriptHost.Proofs.CommandLine.Rounds
import ScriptHost.Proofs.CommandLine.Modes
import ScriptHost.Proofs.Delivery.Remainder
import ScriptHost.Proofs.Control.Restart
import ScriptHost.Proofs.CommandLine.Restart
import ScriptHost.Proofs.Search.Entries
import ScriptHost.Proofs.Search.Parents
import ScriptHost.Proofs.Json.Reader
import ScriptHost.Proofs.Json.Written
import ScriptHost.Proofs.Json.Stream
import ScriptHost.Proofs.Script.Dialogue
import ScriptHost.Proofs.Script.Conversions
import ScriptHost.Proofs.Script.Output
import ScriptHost.Proofs.Script.ByteStrings
import ScriptHost.Proofs.Script.Chains
import ScriptHost.Proofs.Script.Tables
import ScriptHost.Proofs.Search.Library
import ScriptHost.Proofs.Search.Templates
import ScriptHost.Proofs.Search.Leads
import ScriptHost.Proofs.Search.Require
import ScriptHost.Proofs.Script.Serving
import ScriptHost.Proofs.Script.Opening
import ScriptHost.Proofs.Script.Opening.Scope
import ScriptHost.Proofs.Script.Opening.Operand
import ScriptHost.Proofs.Script.Opening.Operator
import ScriptHost.Proofs.Script.Opening.Grammar
import ScriptHost.Proofs.Script.Opening.Chunk
import ScriptHost.Proofs.Script.FirstLine
import ScriptHost.Proofs.Scenario.Scripts
import ScriptHost.Proofs.Search.Order
import ScriptHost.Proofs.Search.Siblings
