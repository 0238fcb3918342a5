import ZtGateway.Lib.Prog
import ZtGateway.Spec.Request

/-! The calls one gateway run makes to its injected services, to the clock and to
the Express response, with the type of each answer. A service may answer anything
of its result type or throw; counters, the event bus, the logger and the response
do not throw. -/

namespace ZTG

/-- What is thrown, as far as `handleTerminalError` and the exception filter tell
errors apart. -/
inductive Err where
  | auditExhausted (message : String)
  | serviceUnavailable (message : String)
  | unauthorized (message : String)
  /-- any other `HttpException` -/
  | http (status : ℕ) (message : String)
  | error (message : String)
  deriving DecidableEq

inductive AuthInvalidReason where
  | missing
  | scheme
  | token

inductive AuthOutcome where
  | ok (claims : UserClaims)
  | invalid (reason : AuthInvalidReason) (message : Option String)

/-- `TrustContext`; `requestTimestamp` is never set by the pipeline -/
structure TrustContext where
  userId : String
  deviceId : String
  ip : String
  ja4h : String

structure IssuedChallenge where
  nonce : String
  difficulty : JsNum
  expiresAt : JsNum

inductive HashcashFailure where
  | malformed
  | invalidHmac
  | expired
  | difficultyMismatch
  | replay
  | lengthBound
  | insufficientZeros
  | identityMismatch
  deriving DecidableEq

/-- `VerifyResult` of the hashcash service -/
inductive VerifyResult where
  | ok (iat : JsNum)
  | fail (reason : HashcashFailure)
  deriving DecidableEq

inductive Decision where
  | allow
  | challenge
  | deny
  deriving DecidableEq

structure PolicyDecision where
  decision : Decision
  reason : String
  score : JsNum
  matchedSubject : Option String := none
  deriving DecidableEq

inductive MfaCreateFailure where
  | rateLimited
  | internal
  deriving DecidableEq

inductive MfaCreateResult where
  | ok (challengeId : String) (expiresAt : JsNum)
  | fail (reason : MfaCreateFailure)
  deriving DecidableEq

/-- `MfaTokenClaims`; `typ` is kept as text because the payload is only cast to
the literal type after the signature check. Times are Unix seconds. -/
structure MfaTokenClaims where
  sub : String
  jti : String
  deviceId : String
  fpHash : String
  typ : String
  iat : ℕ
  exp : ℕ
  deriving DecidableEq

inductive MfaValidateFailure where
  | signature
  | expired
  | fingerprintMismatch
  | revoked
  | unknownJti
  | wrongType
  | internal
  deriving DecidableEq

inductive MfaValidateResult where
  | ok (claims : MfaTokenClaims)
  | fail (reason : MfaValidateFailure)
  deriving DecidableEq

/-- `AuditEntry`; the decision is `allow`, `challenge` or `deny` -/
structure AuditEntry where
  userId : String
  resource : String
  action : String
  decision : Decision
  trustScore : Option JsNum := none
  ja4hFingerprint : Option String := none
  ipAddress : Option String := none
  userAgent : Option String := none
  requestId : Option String := none
  eventType : Option String := none
  deriving DecidableEq

/-- the part of `AxiosResponse` the pipeline reads -/
structure Upstream where
  status : ℕ
  data : Json

inductive EventName where
  | policyDeny
  | authInvalidToken
  | mfaFailed
  | mfaRateLimited
  | mfaInfraError
  | mfaSecretDecryptFailed
  | mfaEnrollmentReset
  | mfaEnrollmentConfirmed
  | auditSignal
  | auditRecordFailed
  | authTokenRevoked
  deriving DecidableEq

/-- `ThreatSignalPayload` -/
structure ThreatSignalPayload where
  type : Option EventName := none
  ip : Option String := none
  userId : Option String := none
  ja4h : Option String := none
  ts : ℕ
  resource : Option String := none
  action : Option String := none
  op : Option String := none
  deviceId : Option String := none
  reason : Option String := none
  jti : Option String := none
  deleted : Option Bool := none
  requestId : Option String := none
  deriving DecidableEq

inductive MfaPromotion where
  | allow
  | reject

/-- `MetricsService` calls; durations in milliseconds -/
inductive Metric where
  | incrementRequest (decision : Decision)
  | observeStageDuration (stage : String) (ms : ℤ)
  | observeAuditWalDuration (ms : ℤ)
  | incrementAuditFailure
  | incrementMfaPromotion (result : MfaPromotion)

inductive StageStatus where
  | pass
  | deny
  | chall
  | skip
  | promo
  deriving DecidableEq

inductive LogLine where
  | opening (requestId method path ip : String)
  | stage (requestId stageId : String) (status : StageStatus)
  | auditTimeout (requestId : Option String) (decision : Decision)
  | bestEffortFailed
  | closing (requestId : String) (totalMs : ℤ)

/-- One call out of the pipeline. -/
inductive Call where
  | now
  | randomUUID
  | authenticate (req : Request)
  | isRevoked (jti : String)
  | demoModeActive
  | evaluateScore (ctx : TrustContext)
  | issueChallenge (userId deviceId : String) (score : JsNum)
  | verifySolution (nonce solution : String) (liveScore : JsNum)
      (expectedUserId expectedDeviceId : String)
  | evaluate (req : Request)
  | validateMfaToken (token userId deviceId ip : String) (ja4h : Option String)
  | createChallenge (userId ip : String) (ja4h : Option String)
  | auditInsert (entry : AuditEntry)
  | forward (req : Request) (claims : UserClaims) (trustScore : JsNum)
  | strip (data : Option Json) (requestPath : String) (roles : List String)
  | recordAllowOutcome (ctx : TrustContext) (finalScore : JsNum)
  | sleep (ms : ℕ)
  | timer (ms : ℕ)
  | emit (event : EventName) (payload : Option ThreatSignalPayload)
  | metric (m : Metric)
  | log (line : LogLine)
  | next
  | respond (status : ℕ) (headers : List (String × String)) (body : Option Json)

@[reducible] def Reply : Call → Type
  | .now => ℕ
  | .randomUUID => String
  | .authenticate _ => Except Err AuthOutcome
  | .isRevoked _ => Except Err Bool
  | .demoModeActive => Bool
  | .evaluateScore _ => Except Err JsNum
  | .issueChallenge .. => Except Err IssuedChallenge
  | .verifySolution .. => Except Err VerifyResult
  | .evaluate _ => Except Err PolicyDecision
  | .validateMfaToken .. => Except Err MfaValidateResult
  | .createChallenge .. => Except Err MfaCreateResult
  | .auditInsert _ => Except Err Unit
  | .forward .. => Except Err Upstream
  | .strip .. => Except Err Json
  | .recordAllowOutcome .. => Except Err Unit
  | .timer _ => Bool
  | _ => Unit

/-- the calls a run waits for while an audit write is in progress -/
def Call.awaited : Call → Bool
  | .auditInsert _ => true
  | .sleep _ => true
  | _ => false

/-- JavaScript built-ins whose text output no result depends on -/
structure Platform where
  /-- `String(n)` -/
  numToString : JsNum → String
  /-- `Number(s)` -/
  toNumber : String → JsNum
  /-- `new Date(ms).toISOString()`, which throws on an invalid date -/
  toISOString : JsNum → Except Err String

structure AuditConfig where
  walBaseDelayMs : ℕ
  walMaxRetries : ℕ

structure GatewayConfig where
  audit : AuditConfig
  /-- `HASHCASH_TRIGGER_THRESHOLD` -/
  triggerThreshold : Option JsNum
  platform : Platform

/-- `StageContext`; `res` and `next` are calls of the run -/
structure StageContext where
  req : Request
  requestId : String
  startedAt : ℕ
  reqPath : String
  ja4h : Option String := none
  claims : Option UserClaims := none
  trustScore : Option JsNum := none
  trustCtx : Option TrustContext := none
  trustOverride : Bool := false
  policyDecision : Option PolicyDecision := none
  upstreamStatus : Option ℕ := none
  upstreamBody : Option Json := none
  strippedBody : Option Json := none
  boplaRemoved : Option (List String) := none

abbrev GwM := Act Call Reply StageContext Err

inductive StageOutcome where
  | continue_
  | bypass
  | shortCircuit (status : ℕ) (body : Json) (headers : List (String × String)) (challenge : Bool)
  | proxied (status : ℕ) (body : Option Json)

structure PipelineStage where
  id : String
  run : GwM StageOutcome

end ZTG
