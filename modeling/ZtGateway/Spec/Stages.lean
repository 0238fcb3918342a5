import ZtGateway.Spec.Audit
import ZtGateway.Spec.Paths

/-! The thirteen stages, in the order the `PIPELINE_STAGES` factory lists them. -/

namespace ZTG

open Act

def publicBypassStage : PipelineStage where
  id := "public_bypass"
  run := do
    let ctx ← get
    if PUBLIC_PATHS.contains ctx.reqPath then pure .bypass else pure .continue_

def honeypotBypassStage : PipelineStage where
  id := "honeypot_bypass"
  run := do
    let ctx ← get
    if HONEYPOT_PATHS.contains ctx.reqPath then pure .bypass else pure .continue_

def buildAuthInvalidPayload (req : Request) (ts : ℕ) : ThreatSignalPayload :=
  { type := some .authInvalidToken, ip := some (extractIp req), ja4h := extractJa4h req, ts := ts }

/-- the 401 body; an undefined message is left out by `JSON.stringify` -/
def authInvalidBody (reason : AuthInvalidReason) (message : Option String) (requestId : String) :
    Json :=
  match reason with
  | .token =>
    .obj ([("error", .str "auth_invalid")] ++
      (message.map fun m => ("message", Json.str m)).toList ++ [("requestId", .str requestId)])
  | _ => .obj [("error", .str "auth_required"), ("requestId", .str requestId)]

def authStage (cfg : GatewayConfig) : PipelineStage where
  id := "auth"
  run := do
    let ctx ← get
    let o : AuthOutcome ← call (.authenticate ctx.req) id
    match o with
    | .ok claims =>
      modify fun c =>
        { c with claims := some claims,
                 req := { c.req with user := some claims, gatewayValidated := true } }
      pure .continue_
    | .invalid reason message =>
      recordWithTimeoutBestEffort cfg.audit
        { userId := "anonymous", resource := ctx.reqPath, action := ctx.req.method,
          decision := .deny, ja4hFingerprint := ctx.ja4h, ipAddress := some (extractIp ctx.req),
          requestId := some ctx.requestId }
      let ts : ℕ ← call .now .ok
      tell (.emit .authInvalidToken (some (buildAuthInvalidPayload ctx.req ts)))
      pure (.shortCircuit 401 (authInvalidBody reason message ctx.requestId) [] false)

def revocationStage (cfg : GatewayConfig) : PipelineStage where
  id := "revocation"
  run := do
    let ctx ← get
    match ctx.claims with
    | none => pure .continue_
    | some claims =>
      let revoked : Bool ← call (.isRevoked claims.jti) id
      if !revoked then pure .continue_
      else
        recordWithTimeoutBestEffort cfg.audit
          { userId := claims.userId, resource := ctx.reqPath, action := ctx.req.method,
            decision := .deny, eventType := some "REVOCATION_BLOCKED", ja4hFingerprint := ctx.ja4h,
            ipAddress := some (extractIp ctx.req), requestId := some ctx.requestId }
        pure (.shortCircuit 401
          (.obj [("error", .str "token_revoked"), ("requestId", .str ctx.requestId)]) [] false)

def authOnlyShortCircuitStage (cfg : GatewayConfig) : PipelineStage where
  id := "auth_only"
  run := do
    let ctx ← get
    if !isAuthOnlyPath ctx.reqPath then pure .continue_
    else
      match ctx.claims with
      | none => throw (.error "AuthOnlyShortCircuitStage: ctx.claims missing")
      | some claims =>
        recordWithTimeoutBestEffort cfg.audit
          { userId := claims.userId, resource := ctx.reqPath, action := ctx.req.method,
            decision := .allow, ja4hFingerprint := ctx.ja4h, ipAddress := some (extractIp ctx.req),
            requestId := some ctx.requestId }
        pure .bypass

/-- `parseDemoOverride`; an array header is not a string -/
def parseDemoOverride (pf : Platform) : Option HeaderValue → Option JsNum
  | some (.one raw) =>
    let trimmed := trim raw.toList
    if trimmed.isEmpty then none
    else
      match pf.toNumber (String.ofList trimmed) with
      | .num q => if q < 0 || 1 < q then none else some (.num q)
      | _ => none
  | _ => none

def trustScoreStage (cfg : GatewayConfig) : PipelineStage where
  id := "trust_score"
  run := do
    let ctx ← get
    match ctx.claims with
    | none => throw (.error "TrustScoreStage: ctx.claims missing")
    | some claims =>
      let trustCtx : TrustContext :=
        { userId := claims.userId, deviceId := claims.deviceId, ip := extractIp ctx.req,
          ja4h := ctx.ja4h.getD "" }
      let active : Bool ← call .demoModeActive .ok
      let override :=
        if active then parseDemoOverride cfg.platform (ctx.req.headers.lookup "x-demo-trust-score")
        else none
      let value ← match override with
        | some v => pure v
        | none => call (.evaluateScore trustCtx) id
      modify fun c =>
        { c with trustScore := some value, trustCtx := some trustCtx,
                 trustOverride := c.trustOverride || override.isSome,
                 req := { c.req with trustScore := some value } }
      pure .continue_

/-- the short-circuit of `HashcashStage`: a fresh challenge with status 429 -/
def issueHashcash (cfg : GatewayConfig) (ctx : StageContext) (claims : UserClaims) (score : JsNum)
    (errCode : String) : GwM StageOutcome := do
  let ch : IssuedChallenge ← call (.issueChallenge claims.userId claims.deviceId score) id
  pure (.shortCircuit 429
    (.obj [("error", .str errCode), ("nonce", .str ch.nonce), ("difficulty", .num ch.difficulty),
      ("expiresAt", .num ch.expiresAt), ("requestId", .str ctx.requestId)])
    [("X-Hashcash-Challenge", ch.nonce ++ ":" ++ cfg.platform.numToString ch.difficulty),
      ("Retry-After", "1")]
    true)

/-- `this.cfg.triggerThreshold ?? 0.5` -/
def GatewayConfig.threshold (cfg : GatewayConfig) : JsNum :=
  cfg.triggerThreshold.getD (.num (1 / 2))

def hashcashStage (cfg : GatewayConfig) : PipelineStage where
  id := "hashcash"
  run := do
    let ctx ← get
    match ctx.claims, ctx.trustScore with
    | none, _ => throw (.error "HashcashStage: ctx.claims missing")
    | some _, none => throw (.error "HashcashStage: ctx.trustScore missing")
    | some claims, some score =>
      if score.le cfg.threshold then pure .continue_
      else
        let nonce := (ctx.req.header "x-hashcash-nonce").getD ""
        let solution := (ctx.req.header "x-hashcash-solution").getD ""
        if nonce = "" || solution = "" then
          issueHashcash cfg ctx claims score "proof_of_work_required"
        else if 256 < solution.length || solution.length < 1 then
          issueHashcash cfg ctx claims score "proof_of_work_invalid"
        else
          let r : VerifyResult ←
            call (.verifySolution nonce solution score claims.userId claims.deviceId) id
          match r with
          | .ok _ => pure .continue_
          | .fail _ => issueHashcash cfg ctx claims score "proof_of_work_invalid"

def policyStage : PipelineStage where
  id := "policy"
  run := do
    let ctx ← get
    let d : PolicyDecision ← call (.evaluate ctx.req) id
    modify fun c => { c with policyDecision := some d }
    pure .continue_

def buildMfaChallengeOutcome (pf : Platform) (ch : MfaCreateResult) (requestId : String) :
    Except Err StageOutcome :=
  match ch with
  | .fail .rateLimited => .ok (.shortCircuit 429
      (.obj [("error", .str "mfa_rate_limited"), ("requestId", .str requestId)]) [] false)
  | .fail .internal => .ok (.shortCircuit 503
      (.obj [("error", .str "mfa_internal"), ("requestId", .str requestId)]) [] false)
  | .ok challengeId expiresAt =>
    match pf.toISOString expiresAt with
    | .error e => .error e
    | .ok iso => .ok (.shortCircuit 401
        (.obj [("error", .str "mfa_required"), ("challengeId", .str challengeId),
          ("verifyEndpoint", .str "/mfa/verify"), ("expiresAt", .str iso),
          ("requestId", .str requestId)])
        [("WWW-Authenticate", "MFA realm=\"gateway\", challengeId=\"" ++ challengeId ++ "\""),
          ("X-MFA-Challenge", challengeId)] false)

/-- the audit row of `MfaPromotionStage` and `AuditAllowStage`, which differ in the decision only -/
def auditRow (ctx : StageContext) (claims : UserClaims) (decision : Decision) : AuditEntry :=
  { userId := claims.userId, resource := ctx.reqPath, action := ctx.req.method,
    decision := decision, trustScore := ctx.trustScore, ja4hFingerprint := ctx.ja4h,
    ipAddress := some (extractIp ctx.req), requestId := some ctx.requestId }

/-- the tail of `MfaPromotionStage.run`: no valid token, so a challenge is created -/
def rejectMfa (cfg : GatewayConfig) (ctx : StageContext) (claims : UserClaims) :
    GwM StageOutcome := do
  tell (.metric (.incrementMfaPromotion .reject))
  recordWithTimeoutBestEffort cfg.audit (auditRow ctx claims .challenge)
  tell (.metric (.incrementRequest .challenge))
  let ch : MfaCreateResult ← call (.createChallenge claims.userId (extractIp ctx.req) ctx.ja4h) id
  match buildMfaChallengeOutcome cfg.platform ch ctx.requestId with
  | .ok o => pure o
  | .error e => throw e

def mfaPromotionStage (cfg : GatewayConfig) : PipelineStage where
  id := "mfa_promotion"
  run := do
    let ctx ← get
    match ctx.claims, ctx.policyDecision with
    | none, _ => throw (.error "MfaPromotionStage: ctx.claims missing")
    | some _, none => throw (.error "MfaPromotionStage: ctx.policyDecision missing")
    | some claims, some decision =>
      match decision.decision with
      | .allow => pure .continue_
      | .deny =>
        recordWithTimeoutBestEffort cfg.audit (auditRow ctx claims .deny)
        tell (.metric (.incrementRequest .deny))
        pure (.shortCircuit 403
          (.obj [("error", .str "policy_denied"), ("reason", .str decision.reason),
            ("requestId", .str ctx.requestId)]) [] false)
      | .challenge =>
        let mfaToken := (ctx.req.header "x-mfa-token").getD ""
        if mfaToken = "" then rejectMfa cfg ctx claims
        else
          let r : MfaValidateResult ←
            call (.validateMfaToken mfaToken claims.userId claims.deviceId (extractIp ctx.req)
              ctx.ja4h) id
          match r with
          | .ok _ =>
            tell (.metric (.incrementMfaPromotion .allow))
            pure .continue_
          | .fail _ => rejectMfa cfg ctx claims

def auditAllowStage (cfg : GatewayConfig) : PipelineStage where
  id := "audit_allow"
  run := do
    let ctx ← get
    match ctx.claims with
    | none => throw (.error "AuditAllowStage: ctx.claims missing")
    | some claims =>
      let walT0 : ℕ ← call .now .ok
      auditLog cfg.audit (auditRow ctx claims .allow)
      let walT1 : ℕ ← call .now .ok
      tell (.metric (.observeAuditWalDuration ((walT1 : ℤ) - walT0)))
      pure .continue_

def proxyStage : PipelineStage where
  id := "proxy"
  run := do
    let ctx ← get
    match ctx.claims, ctx.trustScore with
    | none, _ => throw (.error "ProxyStage: ctx.claims missing")
    | some _, none => throw (.error "ProxyStage: ctx.trustScore missing")
    | some claims, some score =>
      let upstream : Upstream ← call (.forward ctx.req claims score) id
      modify fun c =>
        { c with upstreamStatus := some upstream.status, upstreamBody := some upstream.data }
      pure .continue_

def diffTopLevelKeys : Option Json → Json → List String
  | some (.obj before), .obj after =>
    (before.map Prod.fst).filter fun k => !(after.map Prod.fst).contains k
  | _, _ => []

def boplaStripStage : PipelineStage where
  id := "bopla_strip"
  run := do
    let ctx ← get
    match ctx.claims with
    | none => throw (.error "BoplaStripStage: ctx.claims missing")
    | some claims =>
      let stripped : Json ← call (.strip ctx.upstreamBody ctx.reqPath claims.roles) id
      let removed := diffTopLevelKeys ctx.upstreamBody stripped
      modify fun c =>
        { c with strippedBody := some stripped,
                 boplaRemoved := if removed.isEmpty then c.boplaRemoved else some removed }
      pure .continue_

/-- `TrustScoreService.recordTrustContextAfterAllow` -/
def recordTrustContextAfterAllow (ctx : TrustContext) (finalScore : JsNum) : GwM Unit :=
  if finalScore = .nan then throw (.error "finalScore must be a finite number")
  else call (.recordAllowOutcome ctx finalScore) id

def recordTrustContextStage : PipelineStage where
  id := "record_trust_context"
  run := do
    let ctx ← get
    match ctx.upstreamStatus with
    | none => throw (.error "RecordTrustContextStage: ctx.upstreamStatus missing")
    | some status =>
      if status < 400 then
        match ctx.trustCtx, ctx.trustScore with
        | some trustCtx, some score =>
          recordTrustContextAfterAllow trustCtx score
          pure (.proxied status ctx.strippedBody)
        | _, _ => throw (.error "RecordTrustContextStage: trust ctx/score missing")
      else pure (.proxied status ctx.strippedBody)

end ZTG
