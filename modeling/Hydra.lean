import Hydra.Library.Machine
import Hydra.Library.SortedMap
import Hydra.Library.Traversal
import Hydra.Library.Links
import Hydra.Library.Allocation
import Hydra.Library.Ring
import Hydra.Library.Handover
import Hydra.Library.Bytes
import Hydra.Library.Codec
import Hydra.Library.Checks
import Hydra.Library.Lockstep
import Hydra.Library.Custody
import Hydra.Library.Fingerprint
import Hydra.Library.Ensures
import Hydra.Library.Records
import Hydra.Library.Positions
import Hydra.Library.Decimal
import Hydra.Library.Ascii
import Hydra.Library.Csv
import Hydra.Library.Table
import Hydra.Library.Json
import Hydra.Types
import Hydra.ObjectPool
import Hydra.OrderBook
import Hydra.Matcher
import Hydra.Book.Layout
import Hydra.Book.Edits
import Hydra.Book.View
import Hydra.Book.Counters
import Hydra.Book.Undo
import Hydra.Book.Operations
import Hydra.Book.Exact
import Hydra.Market.Basic
import Hydra.Market.Matching
import Hydra.Market.Sweep
import Hydra.Market.Ledger
import Hydra.Market.Trading
import Hydra.Market.Commuting
import Hydra.Book.Picture
import Hydra.Market.Mirror
import Hydra.Market.Outcomes
import Hydra.Market.Modes
import Hydra.Market.Statistics
import Hydra.Market.Replacing
import Hydra.Market.InPlace
import Hydra.Market.Slicing
import Hydra.Market.History
import Hydra.Market.Renaming
import Hydra.Market.Shortage
import Hydra.Match.Fill
import Hydra.Match.Levels
import Hydra.Match.PriceTime
import Hydra.Match.ProRata
import Hydra.Match.Refinement
import Hydra.Match.Orderly
import Hydra.Match.Visits
import Hydra.Match.Turns
import Hydra.Match.Counters
import Hydra.Match.Exhaustion
import Hydra.Match.Sharing
import Hydra.Runs.Calls
import Hydra.Runs.Adding
import Hydra.Runs.Transient
import Hydra.Runs.Replacing
import Hydra.Runs.InPlace
import Hydra.Runs.Slicing
import Hydra.Runs.Orderly
import Hydra.Runs.Statistics
import Hydra.Runs.Messages
import Hydra.Runs.Representation
import Hydra.Runs.Stream
import Hydra.Runs.Matching
import Hydra.Runs.History
import Hydra.Runs.Reset
import Hydra.Runs.Pool
import Hydra.Runs.Mirror
import Hydra.Runs.Renaming
import Hydra.Runs.Capacity
import Hydra.Spsc.Queue
import Hydra.Spsc.Shared
import Hydra.Spsc.Invariant
import Hydra.Spsc.Interleaving
import Hydra.Spsc.WaitFree
import Hydra.Dataset.Event
import Hydra.Pipeline.Matching
import Hydra.Pipeline.Producers
import Hydra.Pipeline.Delivery
import Hydra.Pipeline.LockFree
import Hydra.Pipeline.Counting
import Hydra.Pipeline.Benchmark
import Hydra.Pipeline.Samples
import Hydra.Pipeline.Alone
import Hydra.Pipeline.Trials
import Hydra.Pipeline.Sequential
import Hydra.Pipeline.Synthetic
import Hydra.Pipeline.Phases
import Hydra.Pipeline.Report
import Hydra.Pipeline.Determinism
import Hydra.Pipeline.Verdict
import Hydra.Pipeline.Induction
import Hydra.Pipeline.Exhaustion
import Hydra.Pipeline.Accounting
import Hydra.Pipeline.Composition
import Hydra.Pipeline.Clock
import Hydra.Pipeline.Pacing
import Hydra.Umem.Socket
import Hydra.Umem.Frames
import Hydra.Umem.Receiving
import Hydra.Wire.Format
import Hydra.Wire.Parser
import Hydra.Wire.Grammar
import Hydra.Wire.Classifier
import Hydra.Wire.TestTraffic
import Hydra.Dataset.Image
import Hydra.Dataset.Reader
import Hydra.Dataset.File
import Hydra.Dataset.Meaning
import Hydra.Dataset.Flat
import Hydra.Dataset.Confusion
import Hydra.Dataset.Generator
import Hydra.Dataset.Generated
import Hydra.Dataset.Replay
import Hydra.Dataset.Prices
import Hydra.Dataset.Trading
import Hydra.Harness.Artifacts
import Hydra.Harness.CpuList
import Hydra.Harness.Escape
import Hydra.Harness.Fingerprint
import Hydra.Harness.RawCsv
