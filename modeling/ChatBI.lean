import ChatBI.Lib.Table
import ChatBI.Lib.Holding
import ChatBI.Lib.Transition
import ChatBI.Lib.JsonShape
import ChatBI.Lib.Calendar
import ChatBI.Lib.Runs
import ChatBI.Lib.Tally
import ChatBI.Lib.Text
import ChatBI.Store.Rows
import ChatBI.Store.Tx
import ChatBI.Store.Execution
import ChatBI.Store.History
import ChatBI.Store.Effect
import ChatBI.Store.Linked
import ChatBI.Store.Ordered
import ChatBI.Store.Executed
import ChatBI.Store.Consistent
import ChatBI.Store.Closing
import ChatBI.Store.Beginning
import ChatBI.Store.Records
import ChatBI.Store.Evolution
import ChatBI.Store.Lifecycle
import ChatBI.Store.Issued
import ChatBI.Store.Extension
import ChatBI.Store.Invariants
import ChatBI.Execution.Runtime
import ChatBI.Execution.Application
import ChatBI.Execution.Begun
import ChatBI.Execution.Steps
import ChatBI.Execution.Acceptance
import ChatBI.Execution.Serial
import ChatBI.Store.Lookup
import ChatBI.Execution.Replay
import ChatBI.Execution.ExactlyOnce
import ChatBI.Execution.Leases
import ChatBI.Execution.Supervision
import ChatBI.Execution.Cancellation
import ChatBI.Lib.Alike
import ChatBI.Lib.Check
import ChatBI.Lib.Slots
import ChatBI.Semantic.Query
import ChatBI.Semantic.Revision
import ChatBI.Semantic.HistoryRevision
import ChatBI.Semantic.Dates
import ChatBI.Semantic.DateEdges
import ChatBI.Semantic.Tiling
import ChatBI.Semantic.Spans
import ChatBI.Semantic.Spelling
import ChatBI.Online.ResultTime
import ChatBI.Lib.CodePoint
import ChatBI.Report.Decoder
import ChatBI.Report.Feed
import ChatBI.Lib.JsonGrammar
import ChatBI.Lib.JsonParser
import ChatBI.Report.Number
import ChatBI.Report.Simulation
import ChatBI.Report.Streaming
import ChatBI.Report.Drafting
import ChatBI.Report.Delivered
import ChatBI.Report.Language
import ChatBI.Lib.Utf8
import ChatBI.Lib.JsonDump
import ChatBI.Lib.JsonSize
import ChatBI.Lib.JsonText
import ChatBI.Lib.JsonReads
import ChatBI.Lib.Dict
import ChatBI.Events.Event
import ChatBI.Events.Channel
import ChatBI.Events.Reducer
import ChatBI.Events.Calls
import ChatBI.Events.DraftText
import ChatBI.Events.Timeline
import ChatBI.Events.Serving
import ChatBI.Events.Delivery
import ChatBI.Events.Reaching
import ChatBI.Events.Observation
import ChatBI.Events.Converging
import ChatBI.Events.Atomic
import ChatBI.Events.Stream
import ChatBI.Events.Representation
import ChatBI.Events.Growing
import ChatBI.Events.Publishing
import ChatBI.Lib.Raises
import ChatBI.Lib.Keyset
import ChatBI.Analysis.Contracts
import ChatBI.Analysis.Attribution
import ChatBI.Analysis.Reconciliation
import ChatBI.Analysis.Columns
import ChatBI.Analysis.Presentation
import ChatBI.Auth.Accounts
import ChatBI.Auth.Transactions
import ChatBI.Auth.Steps
import ChatBI.Auth.Decisions
import ChatBI.Auth.Sound
import ChatBI.Auth.Administrators
import ChatBI.Auth.Sessions
import ChatBI.Analysis.Planning
import ChatBI.Lib.Walks
import ChatBI.Analysis.Validation
import ChatBI.Analysis.Executor
import ChatBI.Conversation.Store
import ChatBI.Conversation.Isolation
import ChatBI.Analysis.Grounding
import ChatBI.Analysis.Periods
import ChatBI.Analysis.Application
import ChatBI.Analysis.Progress
import ChatBI.Analysis.Attempts
import ChatBI.Analysis.Succeeding
import ChatBI.Analysis.Retained
import ChatBI.Lib.Letters
import ChatBI.Lib.Decimal
import ChatBI.Lib.Rounding
import ChatBI.Semantic.NumericLiterals
import ChatBI.Export.Workbook
import ChatBI.Export.Reading
import ChatBI.Export.Writing
import ChatBI.Export.Lossless
import ChatBI.Semantic.MetricPlan
import ChatBI.Semantic.MetricNames
import ChatBI.Semantic.MetricOrder
import ChatBI.Execution.Capacity
import ChatBI.Execution.Pool
import ChatBI.Execution.Restoring
import ChatBI.Lib.FixedDigits
import ChatBI.Lib.Base64
import ChatBI.Lib.DateTime
import ChatBI.Store.Cursor
import ChatBI.Store.Listing
import ChatBI.Auth.QueryEntry
import ChatBI.Semantic.Payload
import ChatBI.Snapshot.QueryState
import ChatBI.Snapshot.Codec
import ChatBI.Snapshot.Whitelist
import ChatBI.Snapshot.Encoding
import ChatBI.Lib.DecimalArithmetic
import ChatBI.Analysis.Decimals
import ChatBI.Analysis.Exact
import ChatBI.Analysis.Storable
import ChatBI.Lib.AsciiJson
import ChatBI.Semantic.Certification
import ChatBI.Semantic.Relevance
import ChatBI.Semantic.Writing
import ChatBI.Semantic.Restorable
import ChatBI.Semantic.Recertified
import ChatBI.Semantic.Checked
import ChatBI.Snapshot.Certificates
import ChatBI.Lib.Matching
import ChatBI.Evaluation.Comparison
import ChatBI.Execution.OperationLocks
import ChatBI.Lib.Numerals
import ChatBI.Frontend.NumberFormat
import ChatBI.Export.Runtime
import ChatBI.Export.PdfDocument
import ChatBI.Export.PdfAcceptance
import ChatBI.Offline.Sources
import ChatBI.Offline.Documents
import ChatBI.Relationships.Build
import ChatBI.Relationships.Agreement
import ChatBI.Relationships.Resolve
import ChatBI.Relationships.Joins
import ChatBI.Lib.Relational
import ChatBI.Lib.Ownership
import ChatBI.SqlGuard.Joins
import ChatBI.SqlGuard.Rows
import ChatBI.SqlGuard.FanOut
import ChatBI.Offline.Publication
import ChatBI.Offline.Published
import ChatBI.Events.Sse
import ChatBI.Events.Wire
import ChatBI.Events.Receiving
