import ZtGateway.Lib.Triple
import ZtGateway.Sanity.Run

/-! How a run of the middleware ends. Each stage finds the fields of the context it reads,
because the stages before it set them, so every error it throws was thrown by a service; the
last stage never continues; and the one call that answers the client follows the stages. -/

namespace ZTG

open Act

/-- the error a service answered with -/
def Call.failure : (op : Call) → Reply op → Option Err
  | .authenticate _, .error e => some e
  | .isRevoked _, .error e => some e
  | .evaluateScore _, .error e => some e
  | .issueChallenge .., .error e => some e
  | .verifySolution .., .error e => some e
  | .evaluate _, .error e => some e
  | .validateMfaToken .., .error e => some e
  | .createChallenge .., .error e => some e
  | .auditInsert _, .error e => some e
  | .forward .., .error e => some e
  | .strip .., .error e => some e
  | .recordAllowOutcome .., .error e => some e
  | _, _ => none

/-- The error came from a service: one answered with it, or `AuditService` ran out of retries, or
`TrustScoreService` was given no number, or a date of `MfaService` has no ISO form. -/
def ServiceThrew (cfg : GatewayConfig) (tr : Trace Call Reply) (e : Err) : Prop :=
  (∃ x ∈ tr, x.op.failure x.ans = some e) ∨ (∃ m, e = .auditExhausted m) ∨
    e = .error "finalScore must be a finite number" ∨
    ∃ ms, cfg.platform.toISOString ms = .error e

variable {cfg : GatewayConfig} {E : Err → Prop} {P P' : StageContext → Prop}

/-- `E` has the errors that do not come as an answer. -/
structure Inside (cfg : GatewayConfig) (E : Err → Prop) : Prop where
  exhausted : ∀ m, E (.auditExhausted m)
  notNumber : E (.error "finalScore must be a finite number")
  date : ∀ ms e, cfg.platform.toISOString ms = .error e → E e

theorem ServiceThrew.inside (cfg : GatewayConfig) (tr : Trace Call Reply) :
    Inside cfg (ServiceThrew cfg tr) where
  exhausted m := .inr (.inl ⟨m, rfl⟩)
  notNumber := .inr (.inr (.inl rfl))
  date ms _ h := .inr (.inr (.inr ⟨ms, h⟩))

/-- As long as services answer with errors in `E`, only errors in `E` are thrown. -/
abbrev Throws {α : Type} (E : Err → Prop) (P : StageContext → Prop) (m : GwM α)
    (Q : α → StageContext → Prop) : Prop :=
  Triple (fun op a => ∀ e, op.failure a = some e → E e) P m Q E

/-- A stage that finds `P` leaves `P'` if it continues. -/
abbrev Passes (E : Err → Prop) (P : StageContext → Prop) (stage : PipelineStage)
    (P' : StageContext → Prop) : Prop :=
  Throws E P stage.run fun o s => o = .continue_ → P' s

private theorem service {α : Type} {op : Call} {f : Reply op → Except Err α}
    (hf : ∀ a e, f a = .error e → op.failure a = some e) :
    Throws E P (call op f) fun _ => P := by
  exact .call (fun _ _ _ _ _ hs => hs) fun a e ha he => ha e (hf a e he)

private theorem infallible {α : Type} {op : Call} {f : Reply op → α} :
    Throws E P (call op fun a => .ok (f a)) fun _ => P :=
  .call (fun _ _ _ _ _ hs => hs) fun _ _ _ h => by simp at h

private theorem writeBlocking_throws (h : Inside cfg E) (entry : AuditEntry) (left : ℕ) :
    Throws E P (writeBlockingFrom cfg.audit entry left) fun _ => P := by
  induction left with
  | zero => exact .throw (h.exhausted _)
  | succ left ih =>
    refine .bind infallible fun r => ?_
    cases r with
    | ok u => exact .pure fun _ hs => hs
    | error e =>
      dsimp only
      split_ifs
      · exact .bind .tell fun _ => ih
      · exact ih

private theorem auditLog_throws (h : Inside cfg E) (entry : AuditEntry) :
    Throws E P (auditLog cfg.audit entry) fun _ => P := by
  unfold auditLog
  split_ifs
  · exact writeBlocking_throws h entry _
  · refine .bind infallible fun r => ?_
    cases r with
    | ok u => exact .pure fun _ hs => hs
    | error e => exact .bind .tell fun _ => .bind .tell fun _ => .pure fun _ hs => hs

theorem record_throws (h : Inside cfg E) (entry : AuditEntry) :
    Throws E P (recordWithTimeoutBestEffort cfg.audit entry) fun _ => P := by
  refine .bind (.race (auditLog_throws h entry)) fun r => ?_
  cases r with
  | some u => exact .pure fun _ hs => hs
  | none => exact .bind .tell fun _ => .bind .tell fun _ => .pure fun _ hs => hs

/-- what `AuthStage` sets -/
def Signed (s : StageContext) : Prop := ∃ claims, s.claims = some claims

/-- what `TrustScoreStage` adds -/
structure Scored (s : StageContext) : Prop where
  claims : Signed s
  score : ∃ score, s.trustScore = some score
  trustCtx : ∃ trustCtx, s.trustCtx = some trustCtx

/-- what `PolicyStage` adds -/
structure Decided (s : StageContext) : Prop extends Scored s where
  decision : ∃ d, s.policyDecision = some d

/-- what `ProxyStage` adds -/
structure Forwarded (s : StageContext) : Prop extends Scored s where
  status : ∃ status, s.upstreamStatus = some status

private theorem bypass_passes (stage : PipelineStage)
    (h : stage = publicBypassStage ∨ stage = honeypotBypassStage) :
    Passes E (fun _ => True) stage fun _ => True := by
  rcases h with rfl | rfl
  · refine .get_bind fun s _ => ?_
    split_ifs
    · exact .pure fun _ _ _ => trivial
    · exact .pure fun _ _ _ => trivial
  · refine .get_bind fun s _ => ?_
    split_ifs
    · exact .pure fun _ _ _ => trivial
    · exact .pure fun _ _ _ => trivial

private theorem auth_passes (h : Inside cfg E) :
    Passes E (fun _ => True) (authStage cfg) Signed := by
  refine .get_bind fun s _ => .bind (service fun _ _ he => by cases he; rfl) fun o => ?_
  cases o with
  | ok claims =>
    refine .modify_bind (fun s _ => ?_) (.pure fun s hs _ => hs)
    exact ⟨claims, rfl⟩
  | invalid reason message =>
    refine .bind (record_throws h _) fun _ => .bind infallible fun ts => .bind .tell fun _ => ?_
    exact .pure fun _ _ ho => by simp at ho

private theorem revocation_passes (h : Inside cfg E) :
    Passes E Signed (revocationStage cfg) Signed := by
  refine .get_bind fun s hs => ?_
  obtain ⟨claims, hc⟩ := hs
  simp only [hc]
  refine .bind (service fun _ _ he => by cases he; rfl) fun revoked => ?_
  split_ifs
  · exact .pure fun s' hs' _ => ⟨claims, hs' ▸ hc⟩
  · exact .bind (record_throws h _) fun _ => .pure fun _ _ ho => by simp at ho

private theorem authOnly_passes (h : Inside cfg E) :
    Passes E Signed (authOnlyShortCircuitStage cfg) Signed := by
  refine .get_bind fun s hs => ?_
  obtain ⟨claims, hc⟩ := hs
  simp only [hc]
  split_ifs
  · exact .pure fun s' hs' _ => ⟨claims, hs' ▸ hc⟩
  · exact .bind (record_throws h _) fun _ => .pure fun _ _ ho => by simp at ho

private theorem trustScore_passes : Passes E Signed (trustScoreStage cfg) Scored := by
  refine .get_bind fun s hs => ?_
  obtain ⟨claims, hc⟩ := hs
  simp only [hc]
  refine .bind infallible fun active => ?_
  have hset : ∀ value override, Throws E (· = s)
      (do
        modify fun c =>
          { c with trustScore := some value, trustCtx := some (s.signals claims),
                   trustOverride := c.trustOverride || override,
                   req := { c.req with trustScore := some value } }
        pure .continue_ : GwM StageOutcome) fun o s => o = .continue_ → Scored s := by
    intro value override
    refine .modify_bind (fun s' hs' => ?_) (.pure fun _ hs' _ => hs')
    exact ⟨⟨claims, hs' ▸ hc⟩, ⟨value, rfl⟩, ⟨_, rfl⟩⟩
  split
  · exact hset _ _
  · exact .bind (service fun _ _ he => by cases he; rfl) fun value => hset value _

private theorem issue_throws (ctx : StageContext) (claims : UserClaims) (score : JsNum)
    (code : String) :
    Throws E P (issueHashcash cfg ctx claims score code) fun o s => o = .continue_ → P' s := by
  exact .bind (service fun _ _ he => by cases he; rfl) fun ch => .pure fun _ _ ho => by simp at ho

private theorem hashcash_passes : Passes E Scored (hashcashStage cfg) Scored := by
  refine .get_bind fun s hs => ?_
  obtain ⟨claims, hc⟩ := hs.claims
  obtain ⟨score, hscore⟩ := hs.score
  simp only [hc, hscore]
  split_ifs
  · exact .pure fun s' hs' _ => hs' ▸ hs
  · exact issue_throws _ _ _ _
  · exact issue_throws _ _ _ _
  · refine .bind (service fun _ _ he => by cases he; rfl) fun r => ?_
    cases r with
    | ok iat => exact .pure fun s' hs' _ => hs' ▸ hs
    | fail reason => exact issue_throws _ _ _ _

private theorem policy_passes : Passes E Scored policyStage Decided := by
  refine .get_bind fun s hs => .bind (service fun _ _ he => by cases he; rfl) fun d => ?_
  refine .modify_bind (fun s' hs' => ?_) (.pure fun s' hs' _ => hs')
  obtain rfl := hs'
  exact ⟨⟨hs.claims, hs.score, hs.trustCtx⟩, ⟨d, rfl⟩⟩

private theorem reject_throws (h : Inside cfg E) (ctx : StageContext) (claims : UserClaims) :
    Throws E P (rejectMfa cfg ctx claims) fun o s => o = .continue_ → P' s := by
  refine .bind .tell fun _ => .bind (record_throws h _) fun _ => .bind .tell fun _ =>
    .bind (service fun _ _ he => by cases he; rfl) fun ch => ?_
  rcases ch with ⟨id, expiresAt⟩ | ⟨_ | _⟩
  · simp only [buildMfaChallengeOutcome]
    cases hiso : cfg.platform.toISOString expiresAt with
    | error e => exact .throw (h.date expiresAt e hiso)
    | ok iso => exact .pure fun _ _ ho => by simp at ho
  · exact .pure fun _ _ ho => by simp at ho
  · exact .pure fun _ _ ho => by simp at ho

private theorem mfaPromotion_passes (h : Inside cfg E) :
    Passes E Decided (mfaPromotionStage cfg) Scored := by
  refine .get_bind fun s hs => ?_
  obtain ⟨claims, hc⟩ := hs.claims
  obtain ⟨d, hd⟩ := hs.decision
  have hsame : ∀ s', s' = s → StageOutcome.continue_ = .continue_ → Scored s' :=
    fun s' hs' _ => hs' ▸ hs.toScored
  simp only [hc, hd]
  cases d.decision with
  | allow => exact .pure hsame
  | deny =>
    exact .bind (record_throws h _) fun _ => .bind .tell fun _ => .pure fun _ _ ho => by simp at ho
  | challenge =>
    dsimp only
    split_ifs
    · exact reject_throws h _ _
    · refine .bind (service fun _ _ he => by cases he; rfl) fun r => ?_
      cases r with
      | ok minted => exact .bind .tell fun _ => .pure hsame
      | fail reason => exact reject_throws h _ _

private theorem auditAllow_passes (h : Inside cfg E) :
    Passes E Scored (auditAllowStage cfg) Scored := by
  refine .get_bind fun s hs => ?_
  obtain ⟨claims, hc⟩ := hs.claims
  simp only [hc]
  refine .bind infallible fun t0 => .bind (auditLog_throws h _) fun _ => .bind infallible fun t1 =>
    .bind .tell fun _ => .pure fun s' hs' _ => ?_
  exact hs' ▸ hs

private theorem proxy_passes : Passes E Scored proxyStage Forwarded := by
  refine .get_bind fun s hs => ?_
  obtain ⟨claims, hc⟩ := hs.claims
  obtain ⟨score, hscore⟩ := hs.score
  simp only [hc, hscore]
  refine .bind (service fun _ _ he => by cases he; rfl) fun up => ?_
  refine .modify_bind (fun s' hs' => ?_) (.pure fun s' hs' _ => hs')
  obtain rfl := hs'
  exact ⟨⟨hs.claims, hs.score, hs.trustCtx⟩, ⟨up.status, rfl⟩⟩

private theorem boplaStrip_passes : Passes E Forwarded boplaStripStage Forwarded := by
  refine .get_bind fun s hs => ?_
  obtain ⟨claims, hc⟩ := hs.claims
  simp only [hc]
  refine .bind (service fun _ _ he => by cases he; rfl) fun body => ?_
  refine .modify_bind (fun s' hs' => ?_) (.pure fun s' hs' _ => hs')
  obtain rfl := hs'
  exact ⟨⟨hs.claims, hs.score, hs.trustCtx⟩, hs.status⟩

/-- The last stage ends the pipeline. -/
private theorem recordTrustContext_ends (h : Inside cfg E) :
    Throws E Forwarded recordTrustContextStage.run fun o _ => o ≠ .continue_ := by
  refine .get_bind fun s hs => ?_
  obtain ⟨status, hstatus⟩ := hs.status
  obtain ⟨trustCtx, htrust⟩ := hs.trustCtx
  obtain ⟨score, hscore⟩ := hs.score
  simp only [hstatus, htrust, hscore]
  split_ifs
  · have hrecord : Throws E (· = s) (recordTrustContextAfterAllow trustCtx score)
        fun _ => (· = s) := by
      unfold recordTrustContextAfterAllow
      split_ifs
      · exact .throw h.notNumber
      · exact service fun _ _ he => by cases he; rfl
    exact .bind hrecord fun _ => .pure fun _ _ => by simp
  · exact .pure fun _ _ => by simp

section Orchestrator

variable {A : ∀ op, Reply op → Prop} {Q : StageOutcome → StageContext → Prop}
  {stage : PipelineStage} {rest : List PipelineStage}

/-- The decorator passes on what the stage did. -/
theorem wrapped_triple (h : Triple A P stage.run Q E) :
    Triple A P (if SILENT_STAGE_IDS.contains stage.id then stage else stage.wrap).run Q E := by
  split_ifs
  · exact h
  · refine .bind .tell fun _ => .bind (.tryCatch h fun e he => ?_) fun outcome => ?_
    · refine .bind .tell fun _ => .get_bind fun s _ => .bind .tell fun _ => ?_
      exact .throw he
    · refine .bind .tell fun _ => .get_bind fun s hs => .bind .tell fun _ => ?_
      exact .pure fun s' hs' => hs' ▸ hs

theorem runStages_cons_triple
    (hstage : Triple A P stage.run (fun o s => o = .continue_ → P' s) E)
    (hrest : Triple A P' (runStages (wrapStages rest)) (fun o _ => o ≠ .continue_) E) :
    Triple A P (runStages (wrapStages (stage :: rest))) (fun o _ => o ≠ .continue_) E := by
  refine .bind (.call (fun _ _ _ _ _ hs => hs) fun _ _ _ h => by simp at h) fun t0 =>
    .bind (wrapped_triple hstage) fun outcome => ?_
  refine .bind (.call (fun _ _ _ _ _ hs => hs) fun _ _ _ h => by simp at h) fun t1 =>
    .bind .tell fun _ => ?_
  cases outcome with
  | continue_ => exact hrest.conseq (fun s hs => hs rfl) fun _ _ ho => ho
  | bypass => exact .pure fun _ _ => by simp
  | shortCircuit status body headers challenge => exact .pure fun _ _ => by simp
  | proxied status body => exact .pure fun _ _ => by simp

theorem runStages_last_triple
    (hstage : Triple A P stage.run (fun o _ => o ≠ .continue_) E) :
    Triple A P (runStages (wrapStages [stage])) (fun o _ => o ≠ .continue_) E := by
  refine .bind (.call (fun _ _ _ _ _ hs => hs) fun _ _ _ h => by simp at h) fun t0 =>
    .bind (wrapped_triple hstage) fun outcome => ?_
  refine .bind (.call (fun _ _ _ _ _ hs => hs) fun _ _ _ h => by simp at h) fun t1 =>
    .bind .tell fun _ => ?_
  cases outcome with
  | continue_ => exact fun s hs => absurd rfl hs
  | bypass => exact .pure fun _ _ => by simp
  | shortCircuit status body headers challenge => exact .pure fun _ _ => by simp
  | proxied status body => exact .pure fun _ _ => by simp

end Orchestrator

/-- The canonical list ends, and throws nothing of its own. -/
theorem pipeline_throws (h : Inside cfg E) :
    Throws E (fun _ => True) (runStages (PIPELINE_STAGES cfg)) fun o _ => o ≠ .continue_ :=
  runStages_cons_triple (bypass_passes _ (.inl rfl)) <|
  runStages_cons_triple (bypass_passes _ (.inr rfl)) <|
  runStages_cons_triple (auth_passes h) <|
  runStages_cons_triple (revocation_passes h) <|
  runStages_cons_triple (authOnly_passes h) <|
  runStages_cons_triple trustScore_passes <|
  runStages_cons_triple hashcash_passes <|
  runStages_cons_triple policy_passes <|
  runStages_cons_triple (mfaPromotion_passes h) <|
  runStages_cons_triple (auditAllow_passes h) <|
  runStages_cons_triple proxy_passes <|
  runStages_cons_triple boplaStrip_passes <|
  runStages_last_triple (recordTrustContext_ends h)

variable {env : Env Call Reply} {s : StageContext} {tr : Trace Call Reply} {req : Request}

/-- The orchestrator never returns `continue`, and what it throws, a service threw. -/
theorem exec_pipeline (cfg : GatewayConfig) (env : Env Call Reply) (s : StageContext)
    (tr : Trace Call Reply) :
    let run := exec env (runStages (PIPELINE_STAGES cfg)) s tr
    (∃ o, run.1.1 = .ok o ∧ o ≠ .continue_) ∨
      ∃ e, run.1.1 = .error e ∧ ServiceThrew cfg run.2 e := by
  intro run
  have hanswers : ∀ x ∈ run.2, ∀ e, x.op.failure x.ans = some e → ServiceThrew cfg run.2 e :=
    fun x hx e he => .inl ⟨x, hx, he⟩
  exact (pipeline_throws (ServiceThrew.inside cfg run.2)).exec_cases trivial hanswers

theorem ServiceThrew.append {e : Err} (h : ServiceThrew cfg tr e) (tr' : Trace Call Reply) :
    ServiceThrew cfg (tr ++ tr') e := by
  rcases h with ⟨x, hx, he⟩ | h
  · exact .inl ⟨x, List.mem_append_left _ hx, he⟩
  · exact .inr h

theorem Call.not_answersClient_of_noise {op : Call} (h : op.material = false) :
    op.answersClient = false := by
  cases op <;> simp_all [Call.material, Call.answersClient]

theorem AddsNoise.answersClient {tr' : Trace Call Reply} (h : AddsNoise tr tr') :
    tr'.only Call.answersClient = tr.only Call.answersClient := by
  obtain ⟨new, rfl, hnew⟩ := h
  rw [Trace.only_append, Trace.only_eq_nil fun x hx => Call.not_answersClient_of_noise (hnew x hx),
    List.append_nil]

/-- No stage answers the client itself. -/
theorem pipeline_silent (cfg : GatewayConfig) :
    (runStages (PIPELINE_STAGES cfg)).Uses fun op => op.answersClient = false := by
  have hnoise : ∀ op : Call, op.material = false → op.answersClient = false :=
    fun op => Call.not_answersClient_of_noise
  have hfront : ∀ op : Call, op.front = true → op.answersClient = false := by
    intro op h
    cases op <;> simp_all [Call.front, Call.sensitive, Call.answersClient]
  refine runStages_uses hnoise fun st hst => ?_
  have hsplit : st ∈ scoringStages cfg ++ [hashcashStage cfg, mfaPromotionStage cfg] ∨
      st = policyStage ∨ st ∈ [auditAllowStage cfg, proxyStage, boplaStripStage] ∨
      st = recordTrustContextStage := by
    simp only [gateStages, scoringStages, List.cons_append, List.nil_append, List.mem_cons,
      List.not_mem_nil, or_false] at hst ⊢
    tauto
  rcases hsplit with h | rfl | h | rfl
  · exact Uses.mono hfront (stage_quiet h)
  · exact .bind .get fun ctx => .bind (fun _ => ⟨rfl, fun _ => trivial⟩) fun d =>
      .bind (.modify _) fun _ => .pure _
  · exact (upstreamStage_within hnoise (fun _ => rfl) (fun _ _ _ => rfl) (fun _ _ _ => rfl) h).uses
  · exact (recordTrustContext_within fun _ _ => rfl).uses

/-- After the stages: one answer to the client, or the error they ended with and no answer. -/
theorem finish_once {r : Except Err StageOutcome} (h : r ≠ .ok .continue_) :
    let x := exec env (finish r) s tr
    (x.1.1 = .ok () ∧
        ∃ e, x.2.only Call.answersClient = tr.only Call.answersClient ++ [e]) ∨
      ∃ err, r = .error err ∧ x.1.1 = .error err ∧ x.2 = tr := by
  cases r with
  | ok o =>
    refine .inl ?_
    simp only [finish, exec_tryCatch]
    cases o with
    | continue_ => exact absurd rfl h
    | bypass => exact ⟨rfl, _, by simp [writeOutcome, Call.answersClient]; rfl⟩
    | shortCircuit status body headers challenge =>
      exact ⟨rfl, _, by simp [writeOutcome, Call.answersClient]; rfl⟩
    | proxied status body =>
      exact ⟨rfl, _, by simp [writeOutcome, exec_bind, Call.answersClient]; rfl⟩
  | error e =>
    simp only [finish, handleTerminalError, exec_bind, exec_get]
    cases e with
    | auditExhausted m =>
      exact .inl ⟨rfl, _, by simp [exec_bind, Call.answersClient]; rfl⟩
    | serviceUnavailable m => exact .inl ⟨rfl, _, by simp [Call.answersClient]; rfl⟩
    | unauthorized m => exact .inl ⟨rfl, _, by simp [Call.answersClient]; rfl⟩
    | http status m => exact .inr ⟨_, rfl, rfl, rfl⟩
    | error m => exact .inr ⟨_, rfl, rfl, rfl⟩

/-- Up to noise, a run is the stages and then the answer to the client. -/
theorem run_finish (hm : req.method ≠ "OPTIONS") :
    let run := Prog.exec env [] (GatewayMiddleware.use cfg req)
    let stages := exec env (runStages (PIPELINE_STAGES cfg)) (runContext env req)
      (openingTrace env req)
    let x := exec env (finish stages.1.1) stages.1.2 stages.2
    run.1 = x.1.1 ∧ AddsNoise x.2 run.2 ∧ stages.2.only Call.answersClient = [] := by
  obtain ⟨hresult, hfinish⟩ :=
    @guarded_finish env (runContext env req) (openingTrace env req) (PIPELINE_STAGES cfg)
  obtain ⟨noise, hnoise, hn⟩ := @opening_noise env req
  obtain ⟨new, hnew, hsilent⟩ := exec_uses (pipeline_silent cfg) env (runContext env req)
    (openingTrace env req)
  rw [exec_use hm]
  dsimp only
  refine ⟨hresult, hfinish, ?_⟩
  rw [hnew, hnoise]
  refine Trace.only_eq_nil fun x hx => ?_
  rcases List.mem_append.mp hx with hx | hx
  · exact Call.not_answersClient_of_noise (hn x hx)
  · exact hsilent x hx

/-- the errors that only a wrong stage list could throw -/
def programmerErrors : List Err :=
  [.error "AuthOnlyShortCircuitStage: ctx.claims missing",
    .error "TrustScoreStage: ctx.claims missing", .error "HashcashStage: ctx.claims missing",
    .error "HashcashStage: ctx.trustScore missing", .error "MfaPromotionStage: ctx.claims missing",
    .error "MfaPromotionStage: ctx.policyDecision missing",
    .error "AuditAllowStage: ctx.claims missing", .error "ProxyStage: ctx.claims missing",
    .error "ProxyStage: ctx.trustScore missing", .error "BoplaStripStage: ctx.claims missing",
    .error "RecordTrustContextStage: ctx.upstreamStatus missing",
    .error "RecordTrustContextStage: trust ctx/score missing",
    .error "orchestrator returned continue; pipeline did not terminate"]

/-- For every request and every behaviour of the services, a run calls `next()` once or writes one
response, or rethrows one error that a service threw and writes nothing; the orchestrator never
returns `continue`, and a programmer error is thrown by no stage: only a service that answers with
its very text could bring it in. -/
theorem one_terminal_action (cfg : GatewayConfig) (env : Env Call Reply) (req : Request) :
    let run := Prog.exec env [] (GatewayMiddleware.use cfg req)
    let stages := exec env (runStages (PIPELINE_STAGES cfg)) (runContext env req)
      (openingTrace env req)
    ((run.1 = .ok () ∧ ∃ e, run.2.only Call.answersClient = [e]) ∨
      ∃ err, run.1 = .error err ∧ run.2.only Call.answersClient = [] ∧
        ServiceThrew cfg run.2 err) ∧
    stages.1.1 ≠ .ok .continue_ ∧
    ∀ err ∈ programmerErrors, stages.1.1 = .error err →
      (∃ x ∈ stages.2, x.op.failure x.ans = some err) ∨
        ∃ ms, cfg.platform.toISOString ms = .error err := by
  intro run stages
  have hstages := exec_pipeline cfg env (runContext env req) (openingTrace env req)
  have hends : stages.1.1 ≠ .ok .continue_ := by
    rcases hstages with ⟨o, ho, hne⟩ | ⟨e, he, -⟩
    · rw [show stages.1.1 = .ok o from ho]
      exact fun h => hne (Except.ok.inj h)
    · rw [show stages.1.1 = .error e from he]
      simp
  refine ⟨?_, hends, ?_⟩
  · by_cases hm : req.method = "OPTIONS"
    · rw [show run = (.ok (), [⟨.next, ()⟩]) from exec_use_options hm]
      exact .inl ⟨rfl, _, rfl⟩
    obtain ⟨hresult, hnoise, hquiet⟩ := @run_finish cfg env req hm
    rw [hresult, hnoise.answersClient]
    rcases finish_once hends with ⟨hok, e, he⟩ | ⟨err, herr, hthrown, htrace⟩
    · refine .inl ⟨hok, e, ?_⟩
      rw [he, hquiet]
      rfl
    · refine .inr ⟨err, hthrown, ?_, ?_⟩
      · rw [htrace, hquiet]
      · rcases hstages with ⟨o, ho, -⟩ | ⟨e, he, hthrew⟩
        · rw [show stages.1.1 = .ok o from ho] at herr
          cases herr
        · rw [show stages.1.1 = .error e from he] at herr
          obtain rfl := Except.error.inj herr
          obtain ⟨new, hnew, -⟩ := hnoise
          rw [hnew, htrace]
          exact hthrew.append new
  · intro err hmem herr
    rcases hstages with ⟨o, ho, -⟩ | ⟨e, he, hthrew⟩
    · rw [show stages.1.1 = .ok o from ho] at herr
      cases herr
    · rw [show stages.1.1 = .error e from he] at herr
      obtain rfl := Except.error.inj herr
      rcases hthrew with hanswer | ⟨m, rfl⟩ | rfl | hdate
      · exact .inl hanswer
      · simp [programmerErrors] at hmem
      · simp [programmerErrors] at hmem
      · exact .inr hdate

end ZTG
