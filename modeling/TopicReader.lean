import TopicReader.Client.Basic
import TopicReader.Client.LogStore
import TopicReader.Client.Script
import TopicReader.CommandLine.Grammar
import TopicReader.CommandLine.Help
import TopicReader.CommandLine.Invocation
import TopicReader.Engine.Coordination
import TopicReader.Engine.Drain
import TopicReader.Engine.Event
import TopicReader.Engine.Funnel
import TopicReader.Engine.Run
import TopicReader.Engine.Schedule
import TopicReader.Engine.Supervision
import TopicReader.Engine.TailWindow
import TopicReader.Json.Document
import TopicReader.Json.Failure
import TopicReader.Json.Number
import TopicReader.Json.Pretty
import TopicReader.Json.Scan
import TopicReader.Json.Text
import TopicReader.Json.Value
import TopicReader.Launch
import TopicReader.Logging.Filter
import TopicReader.Logging.Level
import TopicReader.Logging.Setup
import TopicReader.Main
import TopicReader.Message
import TopicReader.Number.Binary64
import TopicReader.Number.Shortest
import TopicReader.Output.Layout
import TopicReader.Output.Sink
import TopicReader.Output.Writer
import TopicReader.Partition.Bound
import TopicReader.Partition.Offset
import TopicReader.Partition.Resolve
import TopicReader.Partition.Start
import TopicReader.Pattern.CharClass
import TopicReader.Pattern.Escape
import TopicReader.Pattern.Nesting
import TopicReader.Pattern.Reader
import TopicReader.Payload.Chain
import TopicReader.Payload.Codec
import TopicReader.Payload.Encoding
import TopicReader.Proofs.Accounting.Endings
import TopicReader.Proofs.Accounting.Standings
import TopicReader.Proofs.Client.Logs
import TopicReader.Proofs.Client.Readers
import TopicReader.Proofs.Client.Stores
import TopicReader.Proofs.Client.Usage
import TopicReader.Proofs.Client.Wakeups
import TopicReader.Proofs.Engine.Accounts
import TopicReader.Proofs.Engine.Beginning
import TopicReader.Proofs.Engine.Boundary
import TopicReader.Proofs.Engine.DecodeFailure
import TopicReader.Proofs.Engine.DirectOutput
import TopicReader.Proofs.Engine.Effects
import TopicReader.Proofs.Engine.History
import TopicReader.Proofs.Engine.Integrity
import TopicReader.Proofs.Engine.Ledger
import TopicReader.Proofs.Engine.Reaches
import TopicReader.Proofs.Engine.Replay
import TopicReader.Proofs.Engine.RunStep
import TopicReader.Proofs.Engine.SupervisionStep
import TopicReader.Proofs.Isolation.Alone
import TopicReader.Proofs.Isolation.Lifespan
import TopicReader.Proofs.Isolation.Partitions
import TopicReader.Proofs.Json.Grammar
import TopicReader.Proofs.Json.NumberReading
import TopicReader.Proofs.Json.NumberWriting
import TopicReader.Proofs.Json.Place
import TopicReader.Proofs.Json.Reading
import TopicReader.Proofs.Json.Regular
import TopicReader.Proofs.Json.Rendering
import TopicReader.Proofs.Json.ScanComplete
import TopicReader.Proofs.Json.ScanSound
import TopicReader.Proofs.Json.TextReading
import TopicReader.Proofs.Json.TextWriting
import TopicReader.Proofs.Json.Tree
import TopicReader.Proofs.Json.Unambiguous
import TopicReader.Proofs.Outcome.Closing
import TopicReader.Proofs.Outcome.Recordings
import TopicReader.Proofs.Outcome.Reports
import TopicReader.Proofs.Outcome.Verdict
import TopicReader.Proofs.Output.Emission
import TopicReader.Proofs.Output.Lines
import TopicReader.Proofs.Output.Truncation
import TopicReader.Proofs.Output.Writers
import TopicReader.Proofs.Output.Written
import TopicReader.Proofs.Partition.StartGrammar
import TopicReader.Proofs.Payload.DefaultChain
import TopicReader.Proofs.Payload.Encodings
import TopicReader.Proofs.Payload.Rendering
import TopicReader.Proofs.Payload.StandardChain
import TopicReader.Proofs.Phases.Order
import TopicReader.Proofs.Phases.Shutdown
import TopicReader.Proofs.Resolution.Answers
import TopicReader.Proofs.Resolution.Bounds
import TopicReader.Proofs.Resolution.Choice
import TopicReader.Proofs.Resolution.Failures
import TopicReader.Proofs.Resolution.LastOffsets
import TopicReader.Proofs.Resolution.Rules
import TopicReader.Proofs.Settings.Translation
import TopicReader.Proofs.Snapshot.Ending
import TopicReader.Proofs.Snapshot.Output
import TopicReader.Proofs.Snapshot.Progress
import TopicReader.Proofs.Snapshot.Runs
import TopicReader.Proofs.Snapshot.Steps
import TopicReader.Proofs.Snapshot.Underway
import TopicReader.Proofs.Snapshot.Workers
import TopicReader.Proofs.Tail.Arrivals
import TopicReader.Proofs.Tail.Latest
import TopicReader.Proofs.Tail.Output
import TopicReader.Proofs.Tail.Runs
import TopicReader.Proofs.Tail.Selection
import TopicReader.Proofs.Tail.Sorting
import TopicReader.Proofs.Tail.Window
import TopicReader.Proofs.Text.Base64
import TopicReader.Proofs.Text.Bits
import TopicReader.Proofs.Text.Decimals
import TopicReader.Proofs.Text.Hex
import TopicReader.Proofs.Text.Numerals
import TopicReader.Proofs.Text.Utf8
import TopicReader.Proofs.Text.Utf8Grammar
import TopicReader.Proofs.Text.Utf8Reading
import TopicReader.Proofs.Text.Words
import TopicReader.Proofs.Time.Calendar
import TopicReader.Proofs.Time.Rfc3339
import TopicReader.Request
import TopicReader.RunError
import TopicReader.Settings.Basic
import TopicReader.Settings.Connection
import TopicReader.Settings.Document
import TopicReader.Settings.Load
import TopicReader.Settings.Security
import TopicReader.Text.Base64
import TopicReader.Text.Decimal
import TopicReader.Text.Hex
import TopicReader.Text.Letter
import TopicReader.Text.LetterCase
import TopicReader.Text.Printable
import TopicReader.Text.Utf8
import TopicReader.Time.Calendar
import TopicReader.Time.Instant
import TopicReader.Time.Rfc3339
import TopicReader.Yaml.Document
import TopicReader.Yaml.Node
import TopicReader.Yaml.Scalar
import TopicReader.Yaml.Scan
import TopicReader.Yaml.Source
import TopicReader.Yaml.Tag
import TopicReader.Yaml.Token
import TopicReader.Yaml.Value
