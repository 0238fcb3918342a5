import ZtGateway.Sanity.Orchestrator

/-! The nine stages before the ALLOW row: which calls they can make at all, and
exactly which ones they made when the last of them continues. -/

namespace ZTG

open Act

def frontStages (cfg : GatewayConfig) : List PipelineStage :=
  [publicBypassStage, honeypotBypassStage, authStage cfg, revocationStage cfg,
    authOnlyShortCircuitStage cfg, trustScoreStage cfg, hashcashStage cfg, policyStage,
    mfaPromotionStage cfg]

/-- an attempt at the row of `AuditAllowStage`; the row of an auth-only path has no trust score -/
def Call.allowAttempt : Call → Bool
  | .auditInsert row => row.decision = .allow && row.trustScore.isSome
  | _ => false

def Call.isForward : Call → Bool
  | .forward .. => true
  | _ => false

def Call.isAuditSignal : Call → Bool
  | .emit .auditSignal _ => true
  | _ => false

/-- what the client or the next handler sees -/
def Call.answersClient : Call → Bool
  | .respond .. => true
  | .next => true
  | _ => false

/-- the calls that need the gate to be open, or that end the run -/
def Call.sensitive : Call → Bool
  | .forward .. | .strip .. | .recordAllowOutcome .. | .respond .. | .next | .emit .auditSignal _ =>
    true
  | op => op.allowAttempt

theorem Call.not_sensitive_of_noise {op : Call} (h : op.material = false) :
    op.sensitive = false := by
  cases op <;> simp_all [Call.material, Call.sensitive, Call.allowAttempt]

def Call.isEvaluate : Call → Bool
  | .evaluate _ => true
  | _ => false

/-- the calls of the stages before the ALLOW row, `PolicyStage` apart -/
def Call.front : Call → Bool
  | .evaluate _ => false
  | op => !op.sensitive

theorem Call.front_of_noise {op : Call} (h : op.material = false) : op.front = true := by
  cases op <;> simp_all [Call.material, Call.front, Call.sensitive, Call.allowAttempt]

theorem Call.front_rejects {op : Call} (h : op.front = true) :
    op.sensitive = false ∧ op.isEvaluate = false := by
  cases op <;> simp_all [Call.front, Call.sensitive, Call.isEvaluate]

variable {env : Env Call Reply} {s s' : StageContext} {tr tr' : Trace Call Reply}
  {cfg : GatewayConfig}

abbrev Quiet {α : Type} (m : GwM α) : Prop := m.Uses fun op => op.front = true

private theorem call_quiet {α : Type} {op : Call} {f : Reply op → Except Err α}
    (h : op.front = true) :
    Quiet (call op f) := fun _ => ⟨h, fun _ => trivial⟩

private theorem tell_quiet {op : Call} (h : op.front = true) : Quiet (tell op) :=
  fun _ => ⟨h, fun _ => trivial⟩

private theorem record_quiet {entry : AuditEntry}
    (h : entry.decision ≠ .allow ∨ entry.trustScore = none) :
    Quiet (recordWithTimeoutBestEffort cfg.audit entry) := by
  refine recordWithTimeoutBestEffort_uses entry ?_ (fun op => Call.front_of_noise) rfl
  rcases h with h | h <;> simp [Call.front, Call.sensitive, Call.allowAttempt, h]

private theorem issueHashcash_quiet (ctx : StageContext) (claims : UserClaims) (score : JsNum)
    (code : String) :
    Quiet (issueHashcash cfg ctx claims score code) := .bind (call_quiet rfl) fun _ => .pure _

private theorem rejectMfa_quiet (ctx : StageContext) (claims : UserClaims) :
    Quiet (rejectMfa cfg ctx claims) := by
  refine .bind (tell_quiet rfl) fun _ =>
    .bind (record_quiet (.inl (by simp [auditRow]))) fun _ => ?_
  refine .bind (tell_quiet rfl) fun _ => .bind (call_quiet rfl) fun ch => ?_
  cases buildMfaChallengeOutcome cfg.platform ch ctx.requestId with
  | ok o => exact .pure o
  | error e => exact .throw e

private theorem auth_quiet : Quiet (authStage cfg).run := by
  refine .bind .get fun ctx => .bind (call_quiet rfl) fun o => ?_
  cases o with
  | ok claims => exact .bind (.modify _) fun _ => .pure _
  | invalid reason message =>
    exact .bind (record_quiet (.inr rfl)) fun _ => .bind (call_quiet rfl) fun _ =>
      .bind (tell_quiet rfl) fun _ => .pure _

private theorem revocation_quiet : Quiet (revocationStage cfg).run := by
  refine .bind .get fun ctx => ?_
  cases ctx.claims with
  | none => exact .pure _
  | some claims =>
    refine .bind (call_quiet rfl) fun revoked => ?_
    cases revoked with
    | false => exact .pure _
    | true => exact .bind (record_quiet (.inr rfl)) fun _ => .pure _

private theorem authOnly_quiet : Quiet (authOnlyShortCircuitStage cfg).run := by
  refine .bind .get fun ctx => ?_
  cases isAuthOnlyPath ctx.reqPath with
  | false => exact .pure _
  | true =>
    cases ctx.claims with
    | none => exact .throw _
    | some claims => exact .bind (record_quiet (.inr rfl)) fun _ => .pure _

private theorem trustScore_quiet : Quiet (trustScoreStage cfg).run := by
  refine .bind .get fun ctx => ?_
  cases ctx.claims with
  | none => exact .throw _
  | some claims =>
    refine .bind (call_quiet rfl) fun active => ?_
    simp only []
    split
    · exact .bind (.pure _) fun _ => .bind (.modify _) fun _ => .pure _
    · exact .bind (call_quiet rfl) fun _ => .bind (.modify _) fun _ => .pure _

private theorem hashcash_quiet : Quiet (hashcashStage cfg).run := by
  refine .bind .get fun ctx => ?_
  rcases ctx.claims with _ | claims
  · exact .throw _
  · rcases ctx.trustScore with _ | score
    · exact .throw _
    · simp only []
      split_ifs
      · exact .pure _
      · exact issueHashcash_quiet _ _ _ _
      · exact issueHashcash_quiet _ _ _ _
      · refine .bind (call_quiet rfl) fun r => ?_
        cases r with
        | ok iat => exact .pure _
        | fail reason => exact issueHashcash_quiet _ _ _ _

private theorem mfaPromotion_quiet : Quiet (mfaPromotionStage cfg).run := by
  refine .bind .get fun ctx => ?_
  rcases ctx.claims with _ | claims
  · exact .throw _
  · rcases ctx.policyDecision with _ | d
    · exact .throw _
    · simp only []
      cases d.decision with
      | allow => exact .pure _
      | deny =>
        exact .bind (record_quiet (.inl (by simp [auditRow]))) fun _ =>
          .bind (tell_quiet rfl) fun _ => .pure _
      | challenge =>
        simp only []
        split_ifs
        · exact rejectMfa_quiet _ _
        · refine .bind (call_quiet rfl) fun r => ?_
          cases r with
          | ok minted => exact .bind (tell_quiet rfl) fun _ => .pure _
          | fail reason => exact rejectMfa_quiet _ _

/-- the stages up to and including `TrustScoreStage` -/
def scoringStages (cfg : GatewayConfig) : List PipelineStage :=
  [publicBypassStage, honeypotBypassStage, authStage cfg, revocationStage cfg,
    authOnlyShortCircuitStage cfg, trustScoreStage cfg]

theorem stage_quiet {st : PipelineStage}
    (h : st ∈ scoringStages cfg ++ [hashcashStage cfg, mfaPromotionStage cfg]) : Quiet st.run := by
  simp only [scoringStages, List.cons_append, List.nil_append, List.mem_cons, List.not_mem_nil,
    or_false] at h
  rcases h with rfl | rfl | rfl | rfl | rfl | rfl | rfl | rfl
  · exact .bind .get fun ctx => by split_ifs <;> exact .pure _
  · exact .bind .get fun ctx => by split_ifs <;> exact .pure _
  · exact auth_quiet
  · exact revocation_quiet
  · exact authOnly_quiet
  · exact trustScore_quiet
  · exact hashcash_quiet
  · exact mfaPromotion_quiet

theorem frontStages_quiet :
    (runStages (wrapStages (frontStages cfg))).Uses fun op => op.sensitive = false := by
  apply runStages_uses (fun op => Call.not_sensitive_of_noise)
  intro st hst
  by_cases hp : st = policyStage
  · subst hp
    exact .bind .get fun ctx => .bind (fun _ => ⟨rfl, fun _ => trivial⟩) fun d =>
      .bind (.modify _) fun _ => .pure _
  · refine Uses.mono (fun op hop => (Call.front_rejects hop).1) (@stage_quiet cfg st ?_)
    simp only [frontStages, scoringStages, List.cons_append, List.nil_append, List.mem_cons,
      List.not_mem_nil, or_false, hp] at hst ⊢
    tauto

/-- what the authorising stages were answered -/
structure GateAnswers where
  claims : UserClaims
  demoActive : Bool
  score : JsNum
  work : Trace Call Reply
  decision : PolicyDecision
  promotion : Trace Call Reply

namespace GateAnswers

variable (g : GateAnswers)

/-- the context after the nine stages, from the one they started with -/
def context (cfg : GatewayConfig) (ctx : StageContext) : StageContext :=
  { (ctx.withClaims g.claims).withScore g.claims (ctx.demoScore cfg g.demoActive) g.score with
    policyDecision := some g.decision }

/-- the material calls of the nine stages, in order -/
def calls (cfg : GatewayConfig) (ctx : StageContext) : Trace Call Reply :=
  [⟨.authenticate ctx.req, .ok (.ok g.claims)⟩, ⟨.isRevoked g.claims.jti, .ok false⟩,
    ⟨.demoModeActive, g.demoActive⟩] ++
  scoreCalls (ctx.signals g.claims) (ctx.demoScore cfg g.demoActive) g.score ++ g.work ++
  [⟨.evaluate (g.context cfg ctx).req, .ok g.decision⟩] ++ g.promotion

/-- The answers that open the gate. -/
structure Opens (cfg : GatewayConfig) (ctx : StageContext) : Prop where
  notPublic : ctx.reqPath ∉ PUBLIC_PATHS
  notHoneypot : ctx.reqPath ∉ HONEYPOT_PATHS
  notAuthOnly : isAuthOnlyPath ctx.reqPath = false
  score : ∀ v, ctx.demoScore cfg g.demoActive = some v → g.score = v
  work : WorkCalls cfg ctx.req g.claims g.score g.work
  promotion : PromotionCalls ctx g.claims g.decision g.promotion

end GateAnswers

private theorem scoreCalls_only (ctx : TrustContext) (override : Option JsNum) (score : JsNum) :
    Trace.only Call.material (scoreCalls ctx override score) = scoreCalls ctx override score := by
  cases override <;> rfl

private theorem WorkCalls.only {req : Request} {claims : UserClaims} {score : JsNum}
    {calls : Trace Call Reply} (h : WorkCalls cfg req claims score calls) :
    Trace.only Call.material calls = calls := by
  unfold WorkCalls at h
  split_ifs at h
  · rw [h, Trace.only_nil]
  · obtain ⟨_, _, _, -, -, rfl⟩ := h
    rfl

theorem scoring_continue
    (h : exec env (runStages (wrapStages (scoringStages cfg))) s tr = ((.ok .continue_, s'), tr')) :
    ∃ claims active score, s.reqPath ∉ PUBLIC_PATHS ∧ s.reqPath ∉ HONEYPOT_PATHS ∧
      isAuthOnlyPath s.reqPath = false ∧ (∀ v, s.demoScore cfg active = some v → score = v) ∧
      s' = (s.withClaims claims).withScore claims (s.demoScore cfg active) score ∧
      tr'.only Call.material = tr.only Call.material ++
        ([⟨.authenticate s.req, .ok (.ok claims)⟩, ⟨.isRevoked claims.jti, .ok false⟩,
          ⟨.demoModeActive, active⟩] ++
          scoreCalls (s.signals claims) (s.demoScore cfg active) score) := by
  unfold scoringStages at h
  obtain ⟨_, _, _, _, i₀, o₀, hx₀, h₀⟩ := runStages_continue h
  obtain ⟨rfl, rfl, hpub⟩ := publicBypass_continue hx₀
  obtain ⟨_, _, _, _, i₁, o₁, hx₁, h₁⟩ := runStages_continue h₀
  obtain ⟨rfl, rfl, hhon⟩ := honeypotBypass_continue hx₁
  obtain ⟨_, _, _, _, i₂, o₂, hx₂, h₂⟩ := runStages_continue h₁
  obtain ⟨claims, rfl, rfl⟩ := auth_continue hx₂
  obtain ⟨_, _, _, _, i₃, o₃, hx₃, h₃⟩ := runStages_continue h₂
  obtain ⟨rfl, rfl⟩ := revocation_continue rfl hx₃
  obtain ⟨_, _, _, _, i₄, o₄, hx₄, h₄⟩ := runStages_continue h₃
  obtain ⟨rfl, rfl, hauth⟩ := authOnly_continue hx₄
  obtain ⟨_, _, _, _, i₅, o₅, hx₅, h₅⟩ := runStages_continue h₄
  obtain ⟨active, score, hscore, rfl, rfl⟩ := trustScore_continue rfl hx₅
  simp only [wrapStages, List.map_nil, runStages, exec_pure, Prod.mk.injEq, true_and] at h₅
  obtain ⟨rfl, rfl⟩ := h₅
  refine ⟨claims, active, score, hpub, hhon, hauth, hscore, rfl, ?_⟩
  simp only [o₅.only, o₄.only, o₃.only, o₂.only, o₁.only, o₀.only, i₅.only, i₄.only, i₃.only,
    i₂.only, i₁.only, i₀.only, Trace.only_append, scoreCalls_only]
  simp [Call.material]
  rfl

theorem front_continue
    (h : exec env (runStages (wrapStages (frontStages cfg))) s tr = ((.ok .continue_, s'), tr')) :
    ∃ g : GateAnswers, g.Opens cfg s ∧ s' = g.context cfg s ∧
      tr'.only Call.material = tr.only Call.material ++ g.calls cfg s := by
  have hsplit : frontStages cfg =
      scoringStages cfg ++ [hashcashStage cfg, policyStage, mfaPromotionStage cfg] := rfl
  rw [hsplit] at h
  obtain ⟨_, tr₅, hx₅, h₅⟩ := runStages_append_continue h
  obtain ⟨claims, active, score, hpub, hhon, hauth, hscore, rfl, htr₅⟩ := scoring_continue hx₅
  obtain ⟨_, _, _, _, i₆, o₆, hx₆, h₆⟩ := runStages_continue h₅
  obtain ⟨work, rfl, rfl, hwork⟩ := hashcash_continue rfl rfl hx₆
  obtain ⟨_, _, _, _, i₇, o₇, hx₇, h₇⟩ := runStages_continue h₆
  obtain ⟨d, rfl, rfl⟩ := policy_continue hx₇
  obtain ⟨_, _, _, _, i₈, o₈, hx₈, h₈⟩ := runStages_continue h₇
  obtain ⟨promotion, rfl, hcalls, hpromo⟩ := mfaPromotion_continue rfl rfl hx₈
  simp only [wrapStages, List.map_nil, runStages, exec_pure, Prod.mk.injEq, true_and] at h₈
  obtain ⟨rfl, rfl⟩ := h₈
  refine ⟨⟨claims, active, score, work, d, promotion⟩,
    ⟨hpub, hhon, hauth, hscore, hwork, hpromo⟩, rfl, ?_⟩
  simp only [o₈.only, hcalls, o₇.only, o₆.only, i₈.only, i₇.only, i₆.only, Trace.only_append,
    htr₅, hwork.only]
  simp [GateAnswers.calls, Call.material]
  rfl

end ZTG
