import ZtGateway.Lib.Prog
import ZtGateway.Lib.JsNumber
import ZtGateway.Lib.JsMap
import ZtGateway.Lib.Run
import ZtGateway.Lib.Pool
import ZtGateway.Lib.Join
import ZtGateway.Lib.Url
import ZtGateway.Lib.UrlOrigin
import ZtGateway.Lib.UrlPath
import ZtGateway.Lib.UrlReference
import ZtGateway.Spec.Request
import ZtGateway.Spec.Services
import ZtGateway.Spec.Audit
import ZtGateway.Spec.Paths
import ZtGateway.Spec.Stages
import ZtGateway.Spec.Pipeline
import ZtGateway.Spec.Revocation
import ZtGateway.Spec.Totp
import ZtGateway.Spec.Mfa
import ZtGateway.Spec.Proxy
import ZtGateway.Spec.Threat
import ZtGateway.Spec.TrustScore
import ZtGateway.Spec.Policy
import ZtGateway.Spec.RateLimit
import ZtGateway.Spec.Telemetry
import ZtGateway.Sanity.Audit
import ZtGateway.Sanity.Stages
import ZtGateway.Sanity.Orchestrator
import ZtGateway.Sanity.Gate
import ZtGateway.Sanity.Run
import ZtGateway.Sanity.Revocation
import ZtGateway.Sanity.Mfa
import ZtGateway.Sanity.Proxy
import ZtGateway.Sanity.Threat
import ZtGateway.Proofs.Forward
import ZtGateway.Proofs.Revocation
import ZtGateway.Proofs.MfaRedeem
import ZtGateway.Proofs.MfaRuns
import ZtGateway.Proofs.Origin
import ZtGateway.Proofs.Views
import ZtGateway.Proofs.ThreatBurst
import ZtGateway.Proofs.ThreatCooldown
import ZtGateway.Proofs.ThreatReads
import ZtGateway.Proofs.PolicyDecision
import ZtGateway.Proofs.Reputation
import ZtGateway.Proofs.Terminal
import ZtGateway.Proofs.RateLimit
import ZtGateway.Proofs.Telemetry
import ZtGateway.Lib.Base64
import ZtGateway.Lib.Utf8
import ZtGateway.Spec.Enrollment
import ZtGateway.Sanity.Enrollment
import ZtGateway.Proofs.EnrollmentBound
import ZtGateway.Lib.JsonText
import ZtGateway.Spec.Hashcash
import ZtGateway.Proofs.EnrollmentSecret
import ZtGateway.Proofs.EnrollmentSingle
import ZtGateway.Sanity.Hashcash
import ZtGateway.Proofs.Hashcash
import ZtGateway.Proofs.HashcashReplay
import ZtGateway.Proofs.HashcashFresh
import ZtGateway.Lib.Triple
import ZtGateway.Lib.Alike
import ZtGateway.Lib.Mutex
import ZtGateway.Lib.Statistics
import ZtGateway.Lib.JsObject
import ZtGateway.Lib.JsOrder
import ZtGateway.Spec.Client
import ZtGateway.Spec.PolicyAdmin
import ZtGateway.Spec.Mtls
import ZtGateway.Spec.Address
import ZtGateway.Spec.Signals
import ZtGateway.Spec.Bopla
import ZtGateway.Spec.Numeric
import ZtGateway.Proofs.Exits
import ZtGateway.Proofs.Upstream
import ZtGateway.Proofs.Served
import ZtGateway.Proofs.AuditTimeout
import ZtGateway.Proofs.CertCache
import ZtGateway.Proofs.CertMonitor
import ZtGateway.Proofs.PolicyAdmin
import ZtGateway.Proofs.Connections
import ZtGateway.Proofs.HashcashExact
import ZtGateway.Proofs.ThreatWindow
import ZtGateway.Proofs.ThreatSnapshot
import ZtGateway.Proofs.TwoPhase
import ZtGateway.Proofs.SignalFaults
import ZtGateway.Proofs.RateStatistics
import ZtGateway.Proofs.Bopla
import ZtGateway.Proofs.BoplaPaths
import ZtGateway.Proofs.BoplaRoles
import ZtGateway.Proofs.BoplaWalk
import ZtGateway.Proofs.Retry
import ZtGateway.Lib.Bits
import ZtGateway.Lib.BigEndian
import ZtGateway.Lib.Operators
import ZtGateway.Proofs.Base32
import ZtGateway.Proofs.Hotp
import ZtGateway.Proofs.LeadingZeros
import ZtGateway.Proofs.ProxyHeaders
import ZtGateway.Lib.UrlQuery
import ZtGateway.Proofs.BaseUrl
import ZtGateway.Lib.Paging
import ZtGateway.Spec.AuditLogs
import ZtGateway.Proofs.AuditListing
import ZtGateway.Proofs.ForwardedIp
import ZtGateway.Spec.Fingerprint
import ZtGateway.Proofs.Fingerprint
import ZtGateway.Lib.Expiring
import ZtGateway.Lib.Trace
import ZtGateway.Lib.Sessions
import ZtGateway.Spec.Deception
import ZtGateway.Spec.Auth
import ZtGateway.Spec.Guards
import ZtGateway.Spec.Gateway
import ZtGateway.Proofs.Blacklists
import ZtGateway.Proofs.Deception
import ZtGateway.Proofs.Auth
import ZtGateway.Proofs.Bypass
import ZtGateway.Proofs.Guards
import ZtGateway.Proofs.Gateway
import ZtGateway.Proofs.TokenSignals
import ZtGateway.Lib.Transactions
import ZtGateway.Spec.Db
import ZtGateway.Proofs.Db
import ZtGateway.Lib.Unheard
import ZtGateway.Proofs.Narration
