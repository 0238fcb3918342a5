import ZtGateway.Spec.Stages

/-! The stage list with its logging decorator, the orchestrator and
`GatewayMiddleware.use`. -/

namespace ZTG

open Act

def classify (stageId : String) (ctx : StageContext) : StageOutcome → StageStatus
  | .bypass => .skip
  | .shortCircuit status _ _ challenge => if challenge || status = 403 then .chall else .deny
  | _ =>
    if stageId = "mfa_promotion" && (ctx.policyDecision.map (·.decision)) = some .challenge then
      .promo
    else .pass

/-- `StageLoggerDecorator.wrap`; a throw is logged as a deny and thrown again -/
def PipelineStage.wrap (stage : PipelineStage) : PipelineStage where
  id := stage.id
  run := do
    tell .now
    let outcome ← tryCatch stage.run fun e => do
      tell .now
      let ctx ← get
      tell (.log (.stage ctx.requestId stage.id .deny))
      throw e
    tell .now
    let ctx ← get
    tell (.log (.stage ctx.requestId stage.id (classify stage.id ctx outcome)))
    pure outcome

def SILENT_STAGE_IDS : List String := ["audit_allow", "record_trust_context"]

def wrapStages (stages : List PipelineStage) : List PipelineStage :=
  stages.map fun s => if SILENT_STAGE_IDS.contains s.id then s else s.wrap

/-- the stages before the proxy -/
def gateStages (cfg : GatewayConfig) : List PipelineStage :=
  [publicBypassStage, honeypotBypassStage, authStage cfg, revocationStage cfg,
    authOnlyShortCircuitStage cfg, trustScoreStage cfg, hashcashStage cfg, policyStage,
    mfaPromotionStage cfg, auditAllowStage cfg]

/-- the `PIPELINE_STAGES` factory -/
def PIPELINE_STAGES (cfg : GatewayConfig) : List PipelineStage :=
  wrapStages (gateStages cfg ++ [proxyStage, boplaStripStage, recordTrustContextStage])

/-- `PipelineOrchestrator.run` -/
def runStages : List PipelineStage → GwM StageOutcome
  | [] => pure .continue_
  | stage :: rest => do
    let t0 : ℕ ← call .now .ok
    let outcome ← stage.run
    let t1 : ℕ ← call .now .ok
    tell (.metric (.observeStageDuration stage.id ((t1 : ℤ) - t0)))
    match outcome with
    | .continue_ => runStages rest
    | .bypass => pure .bypass
    | .shortCircuit status body headers challenge =>
      pure (.shortCircuit status body headers challenge)
    | .proxied status body => pure (.proxied status body)

def buildStageContext (req : Request) : Prog Call Reply StageContext :=
  let ctx (requestId : String) : Prog Call Reply StageContext :=
    .call .now fun startedAt => .ret
      { req := req, requestId := requestId, startedAt := startedAt,
        reqPath := beforeQuery req.rawUrl, ja4h := req.ja4h }
  match req.header "x-request-id" with
  | some id => ctx id
  | none => .call .randomUUID fun id => ctx id

def writeOutcome : StageOutcome → GwM Unit
  | .bypass => tell .next
  | .shortCircuit status body headers _ => tell (.respond status headers (some body))
  | .proxied status body => do
    tell (.metric (.incrementRequest .allow))
    tell (.respond status [] body)
  | .continue_ => throw (.error "orchestrator returned continue; pipeline did not terminate")

def auditSignalPayload (ctx : StageContext) (ts : ℕ) : ThreatSignalPayload :=
  { type := some .auditSignal, ip := some (extractIp ctx.req), userId := ctx.claims.map (·.userId),
    ja4h := ctx.ja4h, ts := ts, resource := some ctx.reqPath, action := some ctx.req.method,
    requestId := some ctx.requestId }

def handleTerminalError (e : Err) : GwM Unit := do
  let ctx ← get
  match e with
  | .auditExhausted _ =>
    tell (.metric .incrementAuditFailure)
    let ts : ℕ ← call .now .ok
    tell (.emit .auditSignal (some (auditSignalPayload ctx ts)))
    tell (.respond 503 [("Retry-After", "5")]
      (some (.obj [("error", .str "audit_unavailable"), ("requestId", .str ctx.requestId)])))
  | .serviceUnavailable _ =>
    tell (.respond 502 []
      (some (.obj [("error", .str "proxy_unavailable"), ("requestId", .str ctx.requestId)])))
  | .unauthorized message =>
    tell (.respond 401 []
      (some (.obj [("error", .str "auth_invalid"), ("message", .str message),
        ("requestId", .str ctx.requestId)])))
  | e => throw e

/-- the `try`/`catch`/`finally` of `GatewayMiddleware.use` -/
def guarded (stages : List PipelineStage) : GwM Unit := do
  let r ← tryCatch
    (do
      tryCatch (do let outcome ← runStages stages; writeOutcome outcome) handleTerminalError
      pure none)
    fun e => pure (some e)
  let ctx ← get
  let t : ℕ ← call .now .ok
  tell (.log (.closing ctx.requestId ((t : ℤ) - ctx.startedAt)))
  match r with
  | none => pure ()
  | some e => throw e

/-- `GatewayMiddleware.use` over any stages, with the request as it leaves it: the stages write the
claims and the brand on the Express request. An error in the result is rethrown to Express. -/
def GatewayMiddleware.over (stages : List PipelineStage) (req : Request) :
    Prog Call Reply (Except Err Unit × Request) :=
  if req.method = "OPTIONS" then .call .next fun _ => .ret (.ok (), req)
  else
    (buildStageContext req).bind fun ctx =>
      .call (.log (.opening ctx.requestId req.method ctx.reqPath (extractIp req))) fun _ =>
        (guarded stages ctx).bind fun r => .ret (r.1, r.2.req)

def GatewayMiddleware.handle (cfg : GatewayConfig) (req : Request) :
    Prog Call Reply (Except Err Unit × Request) :=
  GatewayMiddleware.over (PIPELINE_STAGES cfg) req

def GatewayMiddleware.use (cfg : GatewayConfig) (req : Request) :
    Prog Call Reply (Except Err Unit) :=
  (GatewayMiddleware.handle cfg req).bind fun r => .ret r.1

/-- every call of one run, in order -/
def runTrace (cfg : GatewayConfig) (env : Env Call Reply) (req : Request) : Trace Call Reply :=
  (Prog.exec env [] (GatewayMiddleware.use cfg req)).2

end ZTG
