import Guardian.Coordinator.AddressMap
import Guardian.Coordinator.Configuration
import Guardian.Coordinator.EntitledSubmissions
import Guardian.Coordinator.FloorSafety
import Guardian.Coordinator.GiveUp
import Guardian.Coordinator.IndependentNonces
import Guardian.Coordinator.NonceWindow
import Guardian.Coordinator.Poll
import Guardian.Coordinator.PollEnds
import Guardian.Coordinator.PollFilters
import Guardian.Coordinator.PollStats
import Guardian.Coordinator.PollVisits
import Guardian.Coordinator.RemoteSigners
import Guardian.Coordinator.Rows
import Guardian.Coordinator.SignDeadline
import Guardian.Coordinator.SubmissionGate
import Guardian.Coordinator.SubmittedSignatures
import Guardian.Coordinator.WhitelistNonces
import Guardian.Core.Accepted
import Guardian.Core.Checks
import Guardian.Core.Environment
import Guardian.Core.Responses
import Guardian.Core.SamePayload
import Guardian.Core.Schemas
import Guardian.Core.SignRunners
import Guardian.Core.SignedAt
import Guardian.Core.TypedData
import Guardian.Core.UintString
import Guardian.Defaults.ArchiveProbe
import Guardian.Defaults.ArchiveRead
import Guardian.Defaults.BatchConjunction
import Guardian.Defaults.CacheContent
import Guardian.Defaults.CacheReference
import Guardian.Defaults.Chain
import Guardian.Defaults.Entitled
import Guardian.Defaults.FallbackCall
import Guardian.Defaults.FaultAttribution
import Guardian.Defaults.FetchOutcome
import Guardian.Defaults.FixedWindow
import Guardian.Defaults.FundPrecedence
import Guardian.Defaults.Helpers
import Guardian.Defaults.HexCase
import Guardian.Defaults.InMemoryCache
import Guardian.Defaults.IntentFundBinding
import Guardian.Defaults.IntentRequestBinding
import Guardian.Defaults.IntentRequestBindingCache
import Guardian.Defaults.IntentRequestBindingSound
import Guardian.Defaults.IntentSwap
import Guardian.Defaults.KeyLock
import Guardian.Defaults.NoFalseRejection
import Guardian.Defaults.PolicyMonotone
import Guardian.Defaults.RateLimiter
import Guardian.Defaults.RateLimiterBudget
import Guardian.Defaults.RateLimiterRuns
import Guardian.Defaults.Reported
import Guardian.Defaults.RequestWhitelisting
import Guardian.Defaults.Respelled
import Guardian.Defaults.RespelledBinding
import Guardian.Defaults.RespelledScan
import Guardian.Defaults.RespelledSwap
import Guardian.Defaults.RetargetterListed
import Guardian.Defaults.RetryAfter
import Guardian.Defaults.RoleEvents
import Guardian.Defaults.SanitizeErr
import Guardian.Defaults.ScanChunks
import Guardian.Defaults.ScanSpec
import Guardian.Defaults.SignAfterChecks
import Guardian.Defaults.StaleOverwrite
import Guardian.Defaults.SwapPrice
import Guardian.Defaults.SwapStages
import Guardian.Defaults.SwapSymmetric
import Guardian.Defaults.UndisturbedScan
import Guardian.Lib.Chunks
import Guardian.Lib.Double
import Guardian.Lib.EventLoop
import Guardian.Lib.Eviction
import Guardian.Lib.FinalizedLog
import Guardian.Lib.Handler
import Guardian.Lib.Interleaving
import Guardian.Lib.Json
import Guardian.Lib.Machine
import Guardian.Lib.NumberText
import Guardian.Lib.OrderedMap
import Guardian.Lib.Paging
import Guardian.Lib.Program
import Guardian.Lib.Recency
import Guardian.Lib.Replace
import Guardian.Lib.Replay
import Guardian.Lib.Secp256k1
import Guardian.Lib.Split
import Guardian.Lib.Sum
import Guardian.Lib.Text
import Guardian.Lib.Tolerance
import Guardian.Lib.TwoRuns
import Guardian.Server.Auth
import Guardian.Server.AuthPipeline
import Guardian.Server.Deadline
import Guardian.Server.DeadlineOrder
import Guardian.Server.DeadlineRace
import Guardian.Server.DeadlineTurns
import Guardian.Server.DomainCache
import Guardian.Server.Errors
import Guardian.Server.Hmac
import Guardian.Server.Http
import Guardian.Server.HttpConformity
import Guardian.Server.HttpGates
import Guardian.Server.RawBody
import Guardian.Server.ResponseCodec
import Guardian.Server.SharedDomains
import Guardian.Server.SigningBudget
import Guardian.Server.SigningHost
