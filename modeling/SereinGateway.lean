import SereinGateway.Lib.Census
import SereinGateway.Lib.Fields
import SereinGateway.Lib.Grouping
import SereinGateway.Lib.Json
import SereinGateway.Lib.JsonText
import SereinGateway.Lib.JsonGrammar
import SereinGateway.Lib.Latch
import SereinGateway.Lib.Lines
import SereinGateway.Lib.Replace
import SereinGateway.Lib.Tally
import SereinGateway.Lib.Text
import SereinGateway.Lib.Transition
import SereinGateway.Lib.Regex
import SereinGateway.Lib.Search
import SereinGateway.Lib.Windows
import SereinGateway.Consensus.Engine
import SereinGateway.Consensus.Adjudication
import SereinGateway.Consensus.Agreement
import SereinGateway.Consensus.CanonicalKey
import SereinGateway.Consensus.Backpressure
import SereinGateway.Interfaces.Payload
import SereinGateway.Interfaces.PayloadText
import SereinGateway.Interfaces.Sanitized
import SereinGateway.Worker.Pii
import SereinGateway.Worker.PiiPattern
import SereinGateway.Worker.Restoration
import SereinGateway.Worker.EscapedPlaceholder
import SereinGateway.Worker.RestoredPayload
import SereinGateway.Worker.MaskRoundTrip
import SereinGateway.Router.EgressGuard
import SereinGateway.Router.RequestKey
import SereinGateway.Router.Orchestrator
import SereinGateway.Router.Quorum
import SereinGateway.Router.SingleFlight
import SereinGateway.Router.Delivery
import SereinGateway.Router.Requests
import SereinGateway.Router.Undisturbed
import SereinGateway.Router.CacheProvenance
import SereinGateway.Router.MapHygiene
import SereinGateway.TrafficControl.CircuitBreaker
import SereinGateway.Router.Cancellation
import SereinGateway.TrafficControl.ProbeBound
import SereinGateway.TrafficControl.BreakerLaw
import SereinGateway.TrafficControl.BreakerLockout
import SereinGateway.TrafficControl.TokenBucket
import SereinGateway.TrafficControl.Polling
import SereinGateway.TrafficControl.ApiRateLimiter
import SereinGateway.TrafficControl.TenantTable
import SereinGateway.TrafficControl.Eviction
import SereinGateway.TrafficControl.FinOps
import SereinGateway.Core.SisInterlock
import SereinGateway.Core.FuelMonitor
import SereinGateway.Core.Microkernel
import SereinGateway.Core.AbiGuard
import SereinGateway.Core.MemoryLimiter
import SereinGateway.Core.ResponseSource
import SereinGateway.Core.TlsfPool
import SereinGateway.Sandbox.VirtualFileSystem
import SereinGateway.Sandbox.QuotaRace
import SereinGateway.Security.HmacAuth
import SereinGateway.Security.ReplayWindow
import SereinGateway.Gateway.Authentication
import SereinGateway.Gateway.SignedPayload
import SereinGateway.Gateway.Refunds
import SereinGateway.Gateway.Billing
import SereinGateway.Gateway.Scheduler
import SereinGateway.Gateway.UnmaskedAnswer
import SereinGateway.Gateway.MaskedPrompt
import SereinGateway.Worker.PiiRegex
import SereinGateway.Worker.Exposure
import SereinGateway.Core.LogSanitizer
import SereinGateway.Core.LogMatches
import SereinGateway.Core.LogLine
import SereinGateway.Core.LogSecrecy
import SereinGateway.Core.LogLeaks
import SereinGateway.Security.ResourceMonitor
import SereinGateway.Core.ConfigWatcher
import SereinGateway.CacheStorage.FlightRecorder
import SereinGateway.CacheStorage.HexEvasion
import SereinGateway.Router.WriteDiscipline
import SereinGateway.Consensus.Verdict
import SereinGateway.Consensus.Formatting
import SereinGateway.TrafficControl.RefundReport
import SereinGateway.TrafficControl.TwoLayers
import SereinGateway.Security.NonceEviction
import SereinGateway.Lib.Walk
import SereinGateway.Sandbox.PathConfinement
import SereinGateway.Interfaces.VoteKey
import SereinGateway.Router.SelfHealing
import SereinGateway.Core.CapabilityPtr
import SereinGateway.Core.ViolationCount
import SereinGateway.Sandbox.DeterministicHooks
import SereinGateway.CacheStorage.Truncation
import SereinGateway.CacheStorage.AuditQuery
import SereinGateway.Lib.Calendar
import SereinGateway.Lib.Matcher
import SereinGateway.Sandbox.XmlHarness
import SereinGateway.Core.SharedBuffer
import SereinGateway.Security.FieldMasking
import SereinGateway.Gateway.HotSwap
import SereinGateway.TrafficControl.Arbitration
import SereinGateway.Lib.JsonTree
import SereinGateway.Core.AstNode
import SereinGateway.CacheStorage.Retention
import SereinGateway.Core.FormalValidator
import SereinGateway.Gateway.FenceAgreement
import SereinGateway.Core.WasmTransfer
import SereinGateway.TrafficControl.FuzzyEquality
import SereinGateway.Consensus.JitteredBackoff
import SereinGateway.Consensus.RetryLoops
import SereinGateway.Lib.Stretches
import SereinGateway.Security.TextMasking
import SereinGateway.Lib.Channel
import SereinGateway.Worker.ComplianceBus
import SereinGateway.Gateway.AuditTrail
import SereinGateway.Lib.Exchange
import SereinGateway.Gateway.HotSwapRace
import SereinGateway.Lib.Hex
import SereinGateway.Security.MaskingEngine
import SereinGateway.Core.DataPersistence
import SereinGateway.Lib.Checks
import SereinGateway.Core.AppConfig
import SereinGateway.Gateway.Startup
import SereinGateway.Router.Providers
import SereinGateway.Router.AdapterWorld
import SereinGateway.Router.FallbackNode
import SereinGateway.Lib.Journal
import SereinGateway.CacheStorage.TmrCache
import SereinGateway.CacheStorage.Staleness
