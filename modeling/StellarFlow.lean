import StellarFlow.Lib.MerkleTree
import StellarFlow.Lib.HexText
import StellarFlow.Lib.FixedWidth
import StellarFlow.Lib.Rank
import StellarFlow.Lib.Python
import StellarFlow.Merkle.Service
import StellarFlow.Merkle.Incremental
import StellarFlow.Merkle.Path
import StellarFlow.Lib.Blocks
import StellarFlow.Merkle.Native
import StellarFlow.Lib.IsoDate
import StellarFlow.Lib.Json
import StellarFlow.Lib.Keyset
import StellarFlow.Lib.Machine
import StellarFlow.Lib.Cursor
import StellarFlow.Lib.TextCodec
import StellarFlow.Lib.Memory
import StellarFlow.Nonce.Window
import StellarFlow.Nonce.Availability
import StellarFlow.Lib.Base64Url
import StellarFlow.Lib.Dict
import StellarFlow.Nonce.Tracker
import StellarFlow.Nonce.Recovery
import StellarFlow.Nonce.TxManager
import StellarFlow.Nonce.SequenceManager
import StellarFlow.Nonce.Resubmission
import StellarFlow.Relayer.NonceManager
import StellarFlow.Relayer.InFlight
import StellarFlow.Relayer.Seeding
import StellarFlow.Relayer.Pool
import StellarFlow.Ingestion.SharedRing
import StellarFlow.Ingestion.RingQueue
import StellarFlow.Lib.Framing
import StellarFlow.Ingestion.StreamBuffer
import StellarFlow.Ingestion.Recovery
import StellarFlow.Ingestion.DirectSink
import StellarFlow.Ingestion.TokenExtract
import StellarFlow.Lib.Cyclic
import StellarFlow.Lib.BoundedQueue
import StellarFlow.Lib.While
import StellarFlow.Queue.PowerOfTwo
import StellarFlow.Queue.RingBuffer
import StellarFlow.Queue.WorkerThread
import StellarFlow.Ingestion.StreamPublisher
import StellarFlow.Lib.DecimalText
import StellarFlow.Database.Partitions
import StellarFlow.Lib.Generators
import StellarFlow.Ingestion.TickerFrames
import StellarFlow.EventBus.BackpressureBot
import StellarFlow.Queue.AsyncBounded
import StellarFlow.Lib.Scientific
import StellarFlow.Lib.SlidingLog
import StellarFlow.Queue.SlidingWindow
import StellarFlow.Lib.PyValue
import StellarFlow.Queue.RedisWindow
import StellarFlow.Lib.Metering
import StellarFlow.Queue.TokenBucket
import StellarFlow.Queue.CircuitBreaker
import StellarFlow.Queue.HalfOpen
import StellarFlow.Ingestion.LogSink
import StellarFlow.Ingestion.LogRestart
import StellarFlow.Shielded.NoteParser
import StellarFlow.Shielded.LeafOrder
import StellarFlow.Horizon.Xdr
import StellarFlow.Horizon.Decoder
import StellarFlow.Horizon.Truncation
import StellarFlow.Horizon.Layout
import StellarFlow.Horizon.Encoder
import StellarFlow.Horizon.WireFormat
import StellarFlow.Horizon.Conformance
import StellarFlow.Horizon.Misreading
import StellarFlow.Horizon.Overrun
import StellarFlow.Lib.Struct
import StellarFlow.Serialization.Telemetry
import StellarFlow.Contracts.LedgerTracker
import StellarFlow.Breaker.Pauses
import StellarFlow.Bridge.Events
import StellarFlow.Bridge.Listener
import StellarFlow.Bridge.Ingestion
import StellarFlow.Bridge.Message
import StellarFlow.Bridge.MintQueue
import StellarFlow.Bridge.Retries
import StellarFlow.Bridge.Amounts
import StellarFlow.Bridge.Staging
import StellarFlow.Bridge.Validators
import StellarFlow.Capital.Rebalancer
import StellarFlow.Capital.Funding
import StellarFlow.Lib.JavaScript
import StellarFlow.Governance.Proposals
import StellarFlow.Governance.Results
import StellarFlow.Governance.ResultExport
import StellarFlow.Governance.Indexing
import StellarFlow.Governance.Progress
import StellarFlow.Governance.Ticks
import StellarFlow.Governance.Submission
import StellarFlow.MultiSig.Collection
import StellarFlow.MultiSig.Requests
import StellarFlow.MultiSig.Expiry
import StellarFlow.MultiSig.Quorum
import StellarFlow.MultiSig.LostCounts
import StellarFlow.OrderBook.DepthCodec
import StellarFlow.OrderBook.SnapshotEngine
import StellarFlow.OrderBook.Synchronizer
import StellarFlow.Orders.FillVerification
import StellarFlow.Disputes.Tickets
import StellarFlow.Sep24.Sessions
import StellarFlow.Cache.Invalidation
import StellarFlow.Remittance.History
import StellarFlow.Cache.StreamListener
import StellarFlow.Lib.Replay
import StellarFlow.Cache.SorobanStorage
import StellarFlow.EventBus.Autoscaler
import StellarFlow.Lib.Lease
import StellarFlow.Vault.OperationLock
import StellarFlow.Webhooks.EndpointHealth
import StellarFlow.Network.MultiRegion
import StellarFlow.Lib.FlatBuffers
import StellarFlow.Serialization.ContractMetadata
import StellarFlow.Database.Writer
import StellarFlow.Database.AsyncWriter
import StellarFlow.Governance.Delegation
import StellarFlow.Rpc.Integrity
import StellarFlow.Shielded.ProofEngine
import StellarFlow.Nonce.ReplayStore
import StellarFlow.Threading.SpscQueue
import StellarFlow.Threading.StealingPool
import StellarFlow.Threading.Supervisor
import StellarFlow.Graphql.Analyzer
import StellarFlow.Kms.Envelope
import StellarFlow.Kms.Rotation
import StellarFlow.Lib.ConsumerGroup
import StellarFlow.Ledger.EventWorker
import StellarFlow.Nullifier.TreeWriter
import StellarFlow.Queue.DeadLetter
import StellarFlow.Queue.Reprocessing
import StellarFlow.Queue.Purge
import StellarFlow.Lib.Decimal
import StellarFlow.Treasury.YieldWorker
import StellarFlow.Treasury.Sweeper
import StellarFlow.Treasury.Claims
import StellarFlow.Lib.IntegerRoot
import StellarFlow.Lib.DecimalRounding
import StellarFlow.Analytics.MathScaler
import StellarFlow.Analytics.SquareRoot
import StellarFlow.Analytics.Conversions
import StellarFlow.Analytics.Corridors
import StellarFlow.Lib.Crossing
import StellarFlow.Lib.WeightedMedian
import StellarFlow.Lib.Csv
import StellarFlow.Matching.BatchAuction
import StellarFlow.Contracts.Auth
import StellarFlow.Portfolio.WaterFilling
import StellarFlow.Portfolio.Fallback
import StellarFlow.Identifiers.Ksuid
import StellarFlow.Relayer.GasReserve
import StellarFlow.Prices.SpotMedian
import StellarFlow.Reports.TaxReport
import StellarFlow.Emission.Projections
import StellarFlow.Kms.KeyHandover
import StellarFlow.Lib.RecordStream
import StellarFlow.Serialization.Channel
import StellarFlow.Lib.PyJson
import StellarFlow.Lib.AtomicFile
import StellarFlow.Workers.StateRegister
