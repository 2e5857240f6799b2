import Kanatoko.Lib.Adaptive
import Kanatoko.Lib.Pool
import Kanatoko.Lib.Worklist
import Kanatoko.Lib.Draws
import Kanatoko.Lib.Fallible
import Kanatoko.Lib.Ordered
import Kanatoko.Lib.Chunks
import Kanatoko.Lib.Machine
import Kanatoko.Lib.Journal
import Kanatoko.Lib.Knowledge
import Kanatoko.Lib.Disk
import Kanatoko.Lib.Words
import Kanatoko.Lib.Sha256
import Kanatoko.Lib.Base64
import Kanatoko.Lib.Codec
import Kanatoko.Lib.Delimited
import Kanatoko.Ledger.Xdr
import Kanatoko.Ledger.Crates
import Kanatoko.Ledger.Snapshot
import Kanatoko.Fixture
import Kanatoko.Errors
import Kanatoko.Runtime
import Kanatoko.Fork
import Kanatoko.Capture.Origin
import Kanatoko.Capture.Coverage
import Kanatoko.Capture.Transport
import Kanatoko.Capture.Source
import Kanatoko.Capture.Builder
import Kanatoko.Capture.Replay
import Kanatoko.Scenario
import Kanatoko.Capture.Bundle
import Kanatoko.Capture.Files
import Kanatoko.Capture.Writers
import Kanatoko.Capture.Http
import Kanatoko.Capture.Requests
import Kanatoko.Capture.Link
import Kanatoko.Auto
import Kanatoko.Testnet.Crates
import Kanatoko.Testnet.Native
import Kanatoko.Testnet.Server
import Kanatoko.Strict.Host
import Kanatoko.Strict.Source
import Kanatoko.Strict.Fork
import Kanatoko.Scenario.Calls
import Kanatoko.Scenario.Replace
import Kanatoko.Properties.Attempt
import Kanatoko.Properties.HostRuns
import Kanatoko.Properties.Pass
import Kanatoko.Properties.Rounds
import Kanatoko.Properties.FixedPoint
import Kanatoko.Properties.OneLedger
import Kanatoko.Properties.FailClosed
import Kanatoko.Properties.Canonical
import Kanatoko.Properties.Metadata
import Kanatoko.Properties.Redaction
import Kanatoko.Properties.Representation
import Kanatoko.Properties.WellFormed
import Kanatoko.Properties.RoundTrip
import Kanatoko.Properties.Migration
import Kanatoko.Properties.AtomicWrite
import Kanatoko.Properties.ConcurrentWrites
import Kanatoko.Properties.Publish
import Kanatoko.Testnet.Host
import Kanatoko.Properties.StateDiff
import Kanatoko.Properties.Operations
import Kanatoko.Properties.ForkRuns
import Kanatoko.Properties.CacheHistory
import Kanatoko.Properties.CacheOrigin
import Kanatoko.Properties.Latch
import Kanatoko.Properties.Closure
import Kanatoko.Properties.QuietLedger
import Kanatoko.Properties.Converges
import Kanatoko.Properties.StaticLedger
import Kanatoko.Properties.ExecutableClosure
import Kanatoko.Properties.Warm
import Kanatoko.Properties.Anchors
import Kanatoko.Properties.Binding
import Kanatoko.Properties.LedgerDigest
import Kanatoko.Properties.DiffExact
import Kanatoko.Properties.Lookups
import Kanatoko.Properties.Mirror
import Kanatoko.Properties.Unknown
import Kanatoko.Properties.Atomic
import Kanatoko.Properties.Restore
import Kanatoko.Properties.Agreement
import Kanatoko.Properties.History
import Kanatoko.Properties.Nonces
import Kanatoko.Properties.Protocol
import Kanatoko.Properties.Funding
import Kanatoko.Properties.PreviewCalls
import Kanatoko.Properties.PreviewReports
import Kanatoko.Properties.PreviewErased
import Kanatoko.Properties.ReplacedCode
import Kanatoko.Properties.Retry
import Kanatoko.Properties.RateLimit
import Kanatoko.Properties.CacheName
import Kanatoko.Properties.Preserved
import Kanatoko.Properties.Pacing
import Kanatoko.Tools.Workflow
import Kanatoko.Testnet.Pool
import Kanatoko.Properties.Workflow
import Kanatoko.Lib.CommandLine
import Kanatoko.Tools.Options
import Kanatoko.Properties.Options
