import RawImport.Lib.Run
import RawImport.Lib.PathText
import RawImport.Lib.Numeral
import RawImport.Store.Statements
import RawImport.Worker.Ownership
import RawImport.Worker.Coverage
import RawImport.Worker.Retries
import RawImport.Lib.History
import RawImport.Worker.FailureCounts
import RawImport.Worker.NewFiles
import RawImport.Worker.Sources
import RawImport.Worker.DngNames
import RawImport.Library.Operations
import RawImport.Library.OutputHash
import RawImport.Library.Reconcile
import RawImport.Library.Registration
import RawImport.Library.Numbers
import RawImport.Library.Restarts
import RawImport.Library.Service
import RawImport.Library.FailedHash
import RawImport.Library.HashRace
import RawImport.Library.Reconversions
import RawImport.Worker.Originals
import RawImport.Worker.Records
import RawImport.Worker.Tokens
import RawImport.Worker.Deduplication
import RawImport.Worker.Fingerprint
import RawImport.Library.Reservation
import RawImport.Store.Connections
import RawImport.Store.Sequence
import RawImport.Store.Uninterrupted
import RawImport.Lib.Lease
import RawImport.Store.Locks
import RawImport.Store.LockExclusion
import RawImport.Store.LockRelease
import RawImport.Rotation.Instances
import RawImport.Rotation.Manager
import RawImport.Rotation.Orientation
import RawImport.Library.PreviewEdits
import RawImport.Server.Threads
import RawImport.Lib.Search
import RawImport.Lib.Cxx
import RawImport.Lib.HttpMessage
import RawImport.Lib.Effect
import RawImport.Store.Client
import RawImport.Api.Request
import RawImport.Api.PacketBoundaries
import RawImport.Api.Query
import RawImport.Api.Json
import RawImport.Api.Handle
import RawImport.Api.Responses
import RawImport.Api.Authorization
import RawImport.Lib.Lua
import RawImport.Lib.ShellWords
import RawImport.Plugin.Commands
import RawImport.Plugin.PreviewNotification
import RawImport.Plugin.BySource
import RawImport.Lib.JsonGrammar
import RawImport.Lib.JsonLiteral
import RawImport.Lib.JsonParser
import RawImport.Lib.JsonSearch
import RawImport.Api.RecordJson
import RawImport.Api.JsonReading
import RawImport.Api.FlatJson
import RawImport.Api.BoundSettings
import RawImport.Api.ReconversionSettings
import RawImport.Lib.Paging
import RawImport.Lib.RowBuffers
import RawImport.Store.Listing
import RawImport.Store.ListedRecords
import RawImport.Api.ListingPages
import RawImport.Api.RotationRequests
import RawImport.Store.StoredRecords
import RawImport.Worker.Pass
import RawImport.Worker.DateSources
import RawImport.Worker.FailedPasses
import RawImport.Rotation.Shutdown
import RawImport.Store.Migrations
import RawImport.Library.FailedReservation
import RawImport.Filesystem.Move
import RawImport.Filesystem.DurableMove
import RawImport.Lib.ShellCommand
import RawImport.Engine.Commands
import RawImport.Rotation.Commands
import RawImport.Lib.Fold
import RawImport.Pipeline.Header
import RawImport.Lib.Segments
import RawImport.Pipeline.Thumbnail
import RawImport.Tools.PreviewEmbed
import RawImport.Plugin.Targets
import RawImport.Plugin.Embedding
import RawImport.Lib.Histogram
import RawImport.Metrics
import RawImport.Lib.Trim
import RawImport.Lib.Cutting
import RawImport.Store.SplitSql
import RawImport.Store.SqlComments
import RawImport.Dotenv
import RawImport.Api.QueryLookup
import RawImport.Lib.Directory
import RawImport.Exiftool.Daemon
import RawImport.Exiftool.Dates
import RawImport.Exiftool.Framing
import RawImport.Worker.Pacing
import RawImport.Lib.Lru
import RawImport.Worker.FingerprintLru
import RawImport.Lib.Measure
import RawImport.Library.WorkerPool
import RawImport.Library.WorkerStop
import RawImport.Lib.Ledger
import RawImport.Worker.Books
import RawImport.Lib.AppendOnly
import RawImport.Library.Catalogue
import RawImport.Api.Permissions
import RawImport.Lib.HttpFraming
import RawImport.Api.Wire
import RawImport.Lib.JsonWriting
import RawImport.Api.AnswerJson
import RawImport.Lib.Polling
import RawImport.Engine.Processes
import RawImport.Lib.Resources
import RawImport.Exiftool.Lifecycle
import RawImport.Lib.Blocks
import RawImport.Lib.Hex
import RawImport.Lib.Raster
import RawImport.Pipeline.Hashing
import RawImport.Plugin.Answer
import RawImport.Plugin.RotationPress
import RawImport.Plugin.RotationRequest
