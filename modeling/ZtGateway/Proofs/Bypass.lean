import ZtGateway.Proofs.Exits
import ZtGateway.Spec.Guards

/-! When the pipeline steps aside and calls `next()`: which stage can, on which paths, and what it
has asked the services by then. The stages after `AuthStage` leave the token alone. -/

namespace ZTG

open Act

variable {env : Env Call Reply} {s s' : StageContext} {tr tr' : Trace Call Reply}
  {cfg : GatewayConfig} {req : Request}

theorem Call.not_gate_of_noise {op : Call} (h : op.material = false) : op.gate = false := by
  cases op <;> simp_all [Call.material, Call.gate]

/-- Noise adds no call of a kind that is material. -/
theorem AddsNoise.only_of {f : Call → Bool} (hf : ∀ op : Call, op.material = false → f op = false)
    (h : AddsNoise tr tr') : tr'.only f = tr.only f := by
  obtain ⟨new, rfl, hnew⟩ := h
  rw [Trace.only_append, Trace.only_eq_nil fun e he => hf e.op (hnew e he), List.append_nil]

theorem AddsNoise.gate (h : AddsNoise tr tr') : tr'.only Call.gate = tr.only Call.gate :=
  h.only_of fun _ => Call.not_gate_of_noise

/-- A list of stages that ends in `o` ends there in its first stage, or goes on. -/
theorem runStages_ends {stage : PipelineStage} {rest : List PipelineStage} {o : StageOutcome}
    (ho : o ≠ .continue_)
    (h : exec env (runStages (wrapStages (stage :: rest))) s tr = ((.ok o, s'), tr')) :
    ∃ tr₀, AddsNoise tr tr₀ ∧
      ((∃ tr₁, exec env stage.run s tr₀ = ((.ok o, s'), tr₁) ∧ AddsNoise tr₁ tr') ∨
        ∃ s₁ tr₁ tr₂, exec env stage.run s tr₀ = ((.ok .continue_, s₁), tr₁) ∧
          AddsNoise tr₁ tr₂ ∧
          exec env (runStages (wrapStages rest)) s₁ tr₂ = ((.ok o, s'), tr')) := by
  obtain ⟨tr₀, tr₂, h₀, h₂, hx⟩ := @exec_runStages_cons env s tr stage
  rw [hx] at h
  refine ⟨tr₀, h₀, ?_⟩
  rcases hr : exec env stage.run s tr₀ with ⟨⟨e | outcome, s₁⟩, tr₁⟩
  · simp [hr] at h
  · rw [hr] at h h₂
    cases outcome with
    | continue_ => exact .inr ⟨s₁, tr₁, tr₂, rfl, h₂, h⟩
    | bypass =>
      simp only [Prod.mk.injEq, Except.ok.injEq] at h
      obtain ⟨⟨rfl, rfl⟩, rfl⟩ := h
      exact .inl ⟨tr₁, rfl, h₂⟩
    | shortCircuit status body headers challenge =>
      simp only [Prod.mk.injEq, Except.ok.injEq] at h
      obtain ⟨⟨rfl, rfl⟩, rfl⟩ := h
      exact .inl ⟨tr₁, rfl, h₂⟩
    | proxied status body =>
      simp only [Prod.mk.injEq, Except.ok.injEq] at h
      obtain ⟨⟨rfl, rfl⟩, rfl⟩ := h
      exact .inl ⟨tr₁, rfl, h₂⟩

/-- Stages that never step aside, in a row. -/
theorem runStages_not_bypass {stages : List PipelineStage}
    (hst : ∀ st ∈ stages, st.run.Returns (· ≠ .bypass)) :
    exec env (runStages (wrapStages stages)) s tr ≠ ((.ok .bypass, s'), tr') := by
  induction stages generalizing s tr with
  | nil => simp [wrapStages, runStages]
  | cons stage rest ih =>
    intro h
    obtain ⟨tr₀, -, ⟨tr₁, hx, -⟩ | ⟨s₁, tr₁, tr₂, -, -, hrest⟩⟩ := runStages_ends (by simp) h
    · exact (hst stage (by simp)).not_ok hx
    · exact ih (fun st h => hst st (by simp [h])) hrest

/-! ## The stages after `AuthStage` -/

def Call.isAuthenticate : Call → Bool
  | .authenticate _ => true
  | _ => false

def Call.tokenSignal : Call → Bool
  | .emit .authInvalidToken _ => true
  | _ => false

/-- the token is asked about, or reported -/
def Call.ofToken (op : Call) : Bool := op.isAuthenticate || op.tokenSignal

theorem Call.not_ofToken_of_noise {op : Call} (h : op.material = false) : op.ofToken = false := by
  cases op <;> simp_all [Call.material, Call.ofToken, Call.isAuthenticate, Call.tokenSignal]

theorem AddsNoise.ofToken (h : AddsNoise tr tr') :
    tr'.only Call.ofToken = tr.only Call.ofToken :=
  h.only_of fun _ => Call.not_ofToken_of_noise

/-- nothing about the token -/
abbrev TokenQuiet {α : Type} (m : GwM α) : Prop := m.Uses fun op => op.ofToken = false

theorem token_record (cfg : GatewayConfig) (entry : AuditEntry) :
    TokenQuiet (recordWithTimeoutBestEffort cfg.audit entry) :=
  recordWithTimeoutBestEffort_uses entry rfl (fun _ => Call.not_ofToken_of_noise) rfl

/-- nothing about the token, and no step aside -/
abbrev Later (m : GwM StageOutcome) : Prop := m.Within (fun op => op.ofToken = false) (· ≠ .bypass)

private theorem issueHashcash_later (ctx : StageContext) (claims : UserClaims) (score : JsNum)
    (code : String) : Later (issueHashcash cfg ctx claims score code) :=
  .bind (.call (by rfl) _) fun _ => .pure (by simp)

private theorem rejectMfa_later (ctx : StageContext) (claims : UserClaims) :
    Later (rejectMfa cfg ctx claims) := by
  refine .bind (.tell (by rfl)) fun _ => .bind (token_record cfg _) fun _ => ?_
  refine .bind (.tell (by rfl)) fun _ => .bind (.call (by rfl) _) fun ch => ?_
  rcases ch with ⟨id, expiresAt⟩ | ⟨_ | _⟩
  · simp only [buildMfaChallengeOutcome]
    cases cfg.platform.toISOString expiresAt with
    | error e => exact .throw e
    | ok iso => exact .pure (by simp)
  · exact .pure (by simp)
  · exact .pure (by simp)

theorem revocation_later : Later (revocationStage cfg).run := by
  refine .bind .get fun ctx => ?_
  cases ctx.claims with
  | none => exact .pure (by simp)
  | some claims =>
    refine .bind (.call (by rfl) _) fun revoked => ?_
    cases revoked with
    | false => exact .pure (by simp)
    | true => exact .bind (token_record cfg _) fun _ => .pure (by simp)

/-- `AuthOnlyShortCircuitStage` may step aside. -/
theorem authOnly_token : TokenQuiet (authOnlyShortCircuitStage cfg).run := by
  refine .bind .get fun ctx => ?_
  cases isAuthOnlyPath ctx.reqPath with
  | false => exact .pure _
  | true =>
    cases ctx.claims with
    | none => exact .throw _
    | some claims => exact .bind (token_record cfg _) fun _ => .pure _

private theorem trustScore_later : Later (trustScoreStage cfg).run := by
  refine .bind .get fun ctx => ?_
  cases ctx.claims with
  | none => exact .throw _
  | some claims =>
    refine .bind (.call (by rfl) _) fun active => ?_
    simp only []
    split
    · exact .bind (.pure _) fun _ => .bind (.modify _) fun _ => .pure (by simp)
    · exact .bind (.call (by rfl) _) fun _ => .bind (.modify _) fun _ => .pure (by simp)

private theorem hashcash_later : Later (hashcashStage cfg).run := by
  refine .bind .get fun ctx => ?_
  rcases ctx.claims with _ | claims
  · exact .throw _
  · rcases ctx.trustScore with _ | score
    · exact .throw _
    · simp only []
      split_ifs
      · exact .pure (by simp)
      · exact issueHashcash_later _ _ _ _
      · exact issueHashcash_later _ _ _ _
      · refine .bind (.call (by rfl) _) fun r => ?_
        cases r with
        | ok iat => exact .pure (by simp)
        | fail reason => exact issueHashcash_later _ _ _ _

private theorem policy_later : Later policyStage.run :=
  .bind .get fun _ => .bind (.call (by rfl) _) fun _ => .bind (.modify _) fun _ => .pure (by simp)

private theorem mfaPromotion_later : Later (mfaPromotionStage cfg).run := by
  refine .bind .get fun ctx => ?_
  rcases ctx.claims with _ | claims
  · exact .throw _
  · rcases ctx.policyDecision with _ | d
    · exact .throw _
    · simp only []
      cases d.decision with
      | allow => exact .pure (by simp)
      | deny =>
        exact .bind (token_record cfg _) fun _ => .bind (.tell (by rfl)) fun _ => .pure (by simp)
      | challenge =>
        simp only []
        split_ifs
        · exact rejectMfa_later _ _
        · refine .bind (.call (by rfl) _) fun r => ?_
          cases r with
          | ok minted => exact .bind (.tell (by rfl)) fun _ => .pure (by simp)
          | fail reason => exact rejectMfa_later _ _

/-- the stages after `AuthOnlyShortCircuitStage` -/
def scoredStages (cfg : GatewayConfig) : List PipelineStage :=
  [trustScoreStage cfg, hashcashStage cfg, policyStage, mfaPromotionStage cfg, auditAllowStage cfg,
    proxyStage, boplaStripStage, recordTrustContextStage]

theorem scoredStages_later : ∀ st ∈ scoredStages cfg, Later st.run := by
  intro st hst
  have hupstream : ∀ st ∈ [auditAllowStage cfg, proxyStage, boplaStripStage], Later st.run :=
    fun st => upstreamStage_within (fun op => Call.not_ofToken_of_noise) (fun _ => rfl)
      (fun _ _ _ => rfl) fun _ _ _ => rfl
  simp only [scoredStages, List.mem_cons, List.not_mem_nil, or_false] at hst
  rcases hst with rfl | rfl | rfl | rfl | rfl | rfl | rfl | rfl
  · exact trustScore_later
  · exact hashcash_later
  · exact policy_later
  · exact mfaPromotion_later
  · exact hupstream _ (by simp)
  · exact hupstream _ (by simp)
  · exact hupstream _ (by simp)
  · exact recordTrustContext_within fun _ _ => rfl

private theorem pathBypass_bypass {paths : List String} {stage : PipelineStage}
    (hstage : stage.run = do
      let ctx ← get
      if paths.contains ctx.reqPath then pure .bypass else pure .continue_)
    (h : exec env stage.run s tr = ((.ok .bypass, s'), tr')) :
    s' = s ∧ tr' = tr ∧ s.reqPath ∈ paths := by
  rw [hstage] at h
  simp only [exec_bind, exec_get] at h
  split_ifs at h with hp
  · simp only [exec_pure, Prod.mk.injEq, true_and] at h
    exact ⟨h.1.symm, h.2.symm, by simpa using hp⟩
  · simp at h

private theorem auth_no_bypass : (authStage cfg).run.Returns (· ≠ .bypass) := by
  refine .bind fun ctx => .bind fun o => ?_
  cases o with
  | ok claims => exact .bind fun _ => .pure (by simp)
  | invalid reason message => exact .bind fun _ => .bind fun _ => .bind fun _ => .pure (by simp)

/-- An audit row that was written or given up leaves the context alone. -/
private theorem record_keeps {entry : AuditEntry} {u : Unit}
    (h : exec env (recordWithTimeoutBestEffort cfg.audit entry) s tr = ((.ok u, s'), tr')) :
    s' = s := by
  have hin : Inside cfg fun _ => True := ⟨fun _ => trivial, trivial, fun _ _ _ => trivial⟩
  have hkeep := @Triple.exec_cases _ _ _ _ _ _ _ _ _ _ (record_throws (P := (· = s)) hin entry)
    env s tr rfl fun _ _ _ _ => trivial
  rw [h] at hkeep
  simpa using hkeep

/-- `AuthOnlyShortCircuitStage` steps aside on its paths, after one more audit row. -/
private theorem authOnly_bypass
    (h : exec env (authOnlyShortCircuitStage cfg).run s tr = ((.ok .bypass, s'), tr')) :
    s' = s ∧ isAuthOnlyPath s.reqPath = true ∧
      ∃ new, tr' = tr ++ new ∧ ∀ e ∈ new, e.op.gate = false := by
  simp only [authOnlyShortCircuitStage] at h
  rw [exec_bind, exec_get] at h
  simp only [] at h
  split_ifs at h with hp
  · simp at h
  · rcases hc : s.claims with _ | claims
    · simp [hc] at h
    · simp only [hc] at h
      obtain ⟨u, s₁, tr₁, hrec, hpure⟩ := bind_ok h
      simp only [exec_pure, Prod.mk.injEq, true_and] at hpure
      obtain ⟨rfl, rfl⟩ := hpure
      refine ⟨record_keeps hrec, by simpa using hp, ?_⟩
      have huses : (recordWithTimeoutBestEffort cfg.audit _).Uses fun op => op.gate = false :=
        recordWithTimeoutBestEffort_uses
          { userId := claims.userId, resource := s.reqPath, action := s.req.method,
            decision := .allow, ja4hFingerprint := s.ja4h, ipAddress := some (extractIp s.req),
            requestId := some s.requestId } rfl (fun op => Call.not_gate_of_noise) rfl
      obtain ⟨new, hnew, hquiet⟩ := exec_uses huses env s tr
      rw [hrec] at hnew
      exact ⟨new, hnew, hquiet⟩

/-- The pipeline steps aside on a public or a decoy path with nothing asked, and on an auth-only
path once the token was authenticated and found not revoked. -/
theorem pipeline_bypass
    (h : exec env (runStages (PIPELINE_STAGES cfg)) s tr = ((.ok .bypass, s'), tr')) :
    (s.reqPath ∈ PUBLIC_PATHS ∨ s.reqPath ∈ HONEYPOT_PATHS) ∧ s' = s ∧ AddsNoise tr tr' ∨
    isAuthOnlyPath s.reqPath = true ∧ ∃ claims, s' = s.withClaims claims ∧
      tr'.only Call.gate = tr.only Call.gate ++
        [⟨.authenticate s.req, .ok (.ok claims)⟩, ⟨.isRevoked claims.jti, .ok false⟩] := by
  have hlist : PIPELINE_STAGES cfg = wrapStages (publicBypassStage :: honeypotBypassStage ::
      authStage cfg :: revocationStage cfg :: authOnlyShortCircuitStage cfg ::
      scoredStages cfg) := rfl
  rw [hlist] at h
  obtain ⟨_, i₀, ⟨_, hx₀, o₀⟩ | ⟨_, _, _, hx₀, o₀, h₀⟩⟩ := runStages_ends (by simp) h
  · obtain ⟨rfl, rfl, hpath⟩ := pathBypass_bypass rfl hx₀
    exact .inl ⟨.inl hpath, rfl, i₀.trans o₀⟩
  obtain ⟨rfl, rfl, -⟩ := publicBypass_continue hx₀
  obtain ⟨_, i₁, ⟨_, hx₁, o₁⟩ | ⟨_, _, _, hx₁, o₁, h₁⟩⟩ := runStages_ends (by simp) h₀
  · obtain ⟨rfl, rfl, hpath⟩ := pathBypass_bypass rfl hx₁
    exact .inl ⟨.inr hpath, rfl, ((i₀.trans o₀).trans i₁).trans o₁⟩
  obtain ⟨rfl, rfl, -⟩ := honeypotBypass_continue hx₁
  obtain ⟨_, i₂, ⟨_, hx₂, -⟩ | ⟨_, _, _, hx₂, o₂, h₂⟩⟩ := runStages_ends (by simp) h₁
  · exact absurd hx₂ auth_no_bypass.not_ok
  obtain ⟨claims, rfl, rfl⟩ := auth_continue hx₂
  obtain ⟨_, i₃, ⟨_, hx₃, -⟩ | ⟨_, _, _, hx₃, o₃, h₃⟩⟩ := runStages_ends (by simp) h₂
  · exact absurd hx₃ revocation_later.returns.not_ok
  obtain ⟨rfl, rfl⟩ := revocation_continue rfl hx₃
  obtain ⟨_, i₄, ⟨_, hx₄, o₄⟩ | ⟨_, _, _, -, -, h₄⟩⟩ := runStages_ends (by simp) h₃
  · obtain ⟨rfl, hpath, new, rfl, hquiet⟩ := authOnly_bypass hx₄
    refine .inr ⟨hpath, claims, rfl, ?_⟩
    simp only [o₄.gate, i₄.gate, o₃.gate, i₃.gate, o₂.gate, i₂.gate, o₁.gate, i₁.gate, o₀.gate,
      i₀.gate, Trace.only_append, Trace.only_eq_nil hquiet, List.append_nil]
    simp [Call.gate]
  · exact absurd h₄ (runStages_not_bypass fun st hst => (scoredStages_later st hst).returns)

/-! ## Whole runs -/

theorem Call.answersClient_of_isNext {op : Call} (h : op.isNext = true) :
    op.answersClient = true := by
  cases op <;> simp_all [Call.isNext, Call.answersClient]

/-- Only a bypass is written as `next()`. -/
theorem finish_next {r : Except Err StageOutcome}
    (h : ∃ e ∈ (exec env (finish r) s tr).2, e.op.isNext = true)
    (htr : ∀ e ∈ tr, e.op.isNext = false) : r = .ok .bypass := by
  have hquiet : ∀ m : GwM Unit, m.Uses (fun op => op.isNext = false) →
      ∀ e ∈ (exec env m s tr).2, e.op.isNext = false := by
    intro m hm e he
    obtain ⟨new, hnew, hall⟩ := exec_uses hm env s tr
    rw [hnew] at he
    rcases List.mem_append.mp he with he | he
    · exact htr e he
    · exact hall e he
  have herror : ∀ e, (handleTerminalError e).Uses fun op => op.isNext = false := by
    intro e
    refine .bind .get fun ctx => ?_
    cases e with
    | auditExhausted m =>
      exact .bind (.tell (by rfl)) fun _ => .bind (fun _ => ⟨rfl, fun _ => trivial⟩) fun _ =>
        .bind (.tell (by rfl)) fun _ => .tell rfl
    | serviceUnavailable m => exact .tell rfl
    | unauthorized m => exact .tell rfl
    | http status m => exact .throw _
    | error m => exact .throw _
  obtain ⟨e, he, hnext⟩ := h
  have hno : ∀ m : GwM Unit, m = finish r → m.Uses (fun op => op.isNext = false) → False := by
    rintro m rfl hm
    rw [hquiet _ hm e he] at hnext
    cases hnext
  cases r with
  | error e => exact (hno _ rfl (herror e)).elim
  | ok o =>
    cases o with
    | bypass => rfl
    | continue_ => exact (hno _ rfl (.tryCatch (.throw _) herror)).elim
    | shortCircuit status body headers challenge =>
      exact (hno _ rfl (.tryCatch (.tell (by rfl)) herror)).elim
    | proxied status body =>
      exact (hno _ rfl (.tryCatch (.bind (.tell (by rfl)) fun _ => .tell rfl) herror)).elim

/-- the stages of this run, as they ended -/
def stagesRun (cfg : GatewayConfig) (env : Env Call Reply) (req : Request) :
    (Except Err StageOutcome × StageContext) × Trace Call Reply :=
  exec env (runStages (PIPELINE_STAGES cfg)) (runContext env req) (openingTrace env req)

/-- `next()` is called in this run. -/
def HandsOn (cfg : GatewayConfig) (env : Env Call Reply) (req : Request) : Prop :=
  ∃ e ∈ runTrace cfg env req, e.op.isNext = true

theorem AddsNoise.isNext (h : AddsNoise tr tr') :
    (∃ e ∈ tr', e.op.isNext = true) ↔ ∃ e ∈ tr, e.op.isNext = true := by
  obtain ⟨new, rfl, hnew⟩ := h
  constructor
  · rintro ⟨e, he, hnext⟩
    rcases List.mem_append.mp he with he | he
    · exact ⟨e, he, hnext⟩
    · have := Call.not_answersClient_of_noise (hnew e he)
      rw [Call.answersClient_of_isNext hnext] at this
      cases this
  · rintro ⟨e, he, hnext⟩
    exact ⟨e, List.mem_append_left _ he, hnext⟩

theorem stagesRun_in_order (hm : req.method ≠ "OPTIONS") :
    (stagesRun cfg env req).2 <+: runTrace cfg env req := by
  obtain ⟨rest, hrest, -⟩ :=
    @guarded_closing env (runContext env req) (openingTrace env req) (PIPELINE_STAGES cfg)
  exact ⟨rest, ((runTrace_eq hm).trans hrest).symm⟩

/-- Once the client was answered the stages are done. -/
theorem stages_done {new : Trace Call Reply} (hm : req.method ≠ "OPTIONS")
    (h : runTrace cfg env req = tr ++ new) (hans : ∃ e ∈ tr, e.op.answersClient = true) :
    (stagesRun cfg env req).2 <+: tr := by
  obtain ⟨e, he, hclient⟩ := hans
  rcases List.prefix_or_prefix_of_prefix (stagesRun_in_order hm) (h ▸ List.prefix_append tr new) with
    hdone | hearly
  · exact hdone
  · have hmem : e ∈ (stagesRun cfg env req).2.only Call.answersClient :=
      Trace.mem_only.mpr ⟨hearly.subset he, hclient⟩
    rw [stagesRun, (run_finish hm).2.2] at hmem
    simp at hmem

/-- No stage calls `next()`. -/
theorem stagesRun_not_next (cfg : GatewayConfig) (env : Env Call Reply)
    (hm : req.method ≠ "OPTIONS") :
    ∀ e ∈ (stagesRun cfg env req).2, e.op.isNext = false := by
  obtain ⟨-, -, hsilent⟩ := @run_finish cfg env req hm
  intro e he
  by_contra hne
  have hmem : e ∈ (stagesRun cfg env req).2.only Call.answersClient :=
    Trace.mem_only.mpr ⟨he, Call.answersClient_of_isNext (by simpa using hne)⟩
  rw [stagesRun, hsilent] at hmem
  simp at hmem

/-- A run hands on when its stages step aside, and only then. -/
theorem handsOn_iff (hm : req.method ≠ "OPTIONS") :
    HandsOn cfg env req ↔ (stagesRun cfg env req).1.1 = .ok .bypass := by
  obtain ⟨-, hnoise, -⟩ := @run_finish cfg env req hm
  have hstages := stagesRun_not_next cfg env hm
  rw [HandsOn, runTrace, hnoise.isNext]
  constructor
  · exact fun h => finish_next h hstages
  · intro hbypass
    rw [stagesRun] at hbypass
    rw [hbypass]
    exact ⟨⟨.next, ()⟩, by simp [finish, exec_tryCatch, writeOutcome], rfl⟩

private theorem exec_publicBypass : exec env publicBypassStage.run s tr =
    ((.ok (if PUBLIC_PATHS.contains s.reqPath then .bypass else .continue_), s), tr) := by
  simp only [publicBypassStage, exec_bind, exec_get]
  split_ifs <;> rfl

private theorem exec_honeypotBypass : exec env honeypotBypassStage.run s tr =
    ((.ok (if HONEYPOT_PATHS.contains s.reqPath then .bypass else .continue_), s), tr) := by
  simp only [honeypotBypassStage, exec_bind, exec_get]
  split_ifs <;> rfl

/-- The two path checks come first: they end the pipeline, or leave it at `AuthStage` with nothing
asked. -/
theorem pipeline_paths (cfg : GatewayConfig) (env : Env Call Reply) (s : StageContext)
    (tr : Trace Call Reply) :
    (s.reqPath ∈ PUBLIC_PATHS ∨ s.reqPath ∈ HONEYPOT_PATHS) ∧
      (∃ tr', exec env (runStages (PIPELINE_STAGES cfg)) s tr = ((.ok .bypass, s), tr') ∧
        AddsNoise tr tr') ∨
    ¬ (s.reqPath ∈ PUBLIC_PATHS ∨ s.reqPath ∈ HONEYPOT_PATHS) ∧
      ∃ tr', AddsNoise tr tr' ∧ exec env (runStages (PIPELINE_STAGES cfg)) s tr =
        exec env (runStages (wrapStages (authStage cfg :: revocationStage cfg ::
          authOnlyShortCircuitStage cfg :: scoredStages cfg))) s tr' := by
  have hlist : PIPELINE_STAGES cfg = wrapStages (publicBypassStage :: honeypotBypassStage ::
      authStage cfg :: revocationStage cfg :: authOnlyShortCircuitStage cfg ::
      scoredStages cfg) := rfl
  obtain ⟨tr₀, tr₁, h₀, h₁, hx₁⟩ := @exec_runStages_cons env s tr publicBypassStage
  obtain ⟨tr₂, tr₃, h₂, h₃, hx₂⟩ := @exec_runStages_cons env s tr₁ honeypotBypassStage
  rw [exec_publicBypass] at h₁ hx₁
  rw [exec_honeypotBypass] at h₃ hx₂
  rw [hlist, hx₁]
  by_cases hpub : s.reqPath ∈ PUBLIC_PATHS
  · rw [if_pos (by simpa using hpub)]
    exact .inl ⟨.inl hpub, tr₁, rfl, h₀.trans h₁⟩
  · rw [if_neg (by simpa using hpub)]
    dsimp only
    rw [hx₂]
    by_cases hhon : s.reqPath ∈ HONEYPOT_PATHS
    · rw [if_pos (by simpa using hhon)]
      exact .inl ⟨.inr hhon, tr₃, rfl, ((h₀.trans h₁).trans h₂).trans h₃⟩
    · rw [if_neg (by simpa using hhon)]
      exact .inr ⟨by simp [hpub, hhon], tr₃, ((h₀.trans h₁).trans h₂).trans h₃, rfl⟩

/-- What follows a call adds to what was asked before. -/
theorem bind_grows {α β : Type} (env : Env Call Reply) (s : StageContext) (tr : Trace Call Reply)
    (m : GwM α) (f : α → GwM β) :
    ∃ new, (exec env (m >>= f) s tr).2 = (exec env m s tr).2 ++ new := by
  rw [exec_bind]
  rcases exec env m s tr with ⟨⟨e | a, s₁⟩, tr₁⟩
  · exact ⟨[], by simp⟩
  · exact Prog.exec_grows env tr₁ (f a s₁)

/-- What a list of stages asks, it asks on top of what its first stage asked. -/
theorem runStages_grows (env : Env Call Reply) (s : StageContext) (tr : Trace Call Reply)
    (stage : PipelineStage) (rest : List PipelineStage) :
    ∃ tr₀ new, AddsNoise tr tr₀ ∧ (exec env (runStages (wrapStages (stage :: rest))) s tr).2 =
      (exec env stage.run s tr₀).2 ++ new := by
  obtain ⟨tr₀, tr₁, h₀, ⟨noise, rfl, -⟩, hx⟩ := @exec_runStages_cons env s tr stage
  rw [hx]
  rcases (exec env stage.run s tr₀).1 with ⟨e | outcome, s₁⟩
  · exact ⟨tr₀, noise, h₀, rfl⟩
  · cases outcome with
    | continue_ =>
      obtain ⟨new, hnew⟩ := Prog.exec_grows env ((exec env stage.run s tr₀).2 ++ noise)
        (runStages (wrapStages rest) s₁)
      exact ⟨tr₀, noise ++ new, h₀, by rw [← List.append_assoc]; exact hnew⟩
    | bypass => exact ⟨tr₀, noise, h₀, rfl⟩
    | shortCircuit status body headers challenge => exact ⟨tr₀, noise, h₀, rfl⟩
    | proxied status body => exact ⟨tr₀, noise, h₀, rfl⟩

/-- `AuthStage` asks before anything else. -/
theorem authenticates_first (env : Env Call Reply) (s : StageContext) (tr : Trace Call Reply)
    (cfg : GatewayConfig) (rest : List PipelineStage) :
    ∃ tr₀ ans more, AddsNoise tr tr₀ ∧
      (exec env (runStages (wrapStages (authStage cfg :: rest))) s tr).2 =
        tr₀ ++ ⟨.authenticate s.req, ans⟩ :: more := by
  obtain ⟨tr₀, new, h₀, hnew⟩ := runStages_grows env s tr (authStage cfg) rest
  rw [hnew]
  simp only [authStage]
  rw [exec_bind, exec_get]
  obtain ⟨more, hmore⟩ := bind_grows env s tr₀
    (call (.authenticate s.req) id : GwM AuthOutcome) _
  rw [hmore, exec_call, List.append_assoc, List.append_assoc]
  exact ⟨tr₀, env tr₀ (.authenticate s.req), more ++ new, h₀, rfl⟩

/-- a request nothing is asked of: a preflight, or one to a public or a decoy path -/
def Request.Exempt (req : Request) : Prop :=
  req.method = "OPTIONS" ∨ beforeQuery req.rawUrl ∈ PUBLIC_PATHS ∨
    beforeQuery req.rawUrl ∈ HONEYPOT_PATHS

theorem exempt_handed_on (h : req.Exempt) :
    (runTrace cfg env req).only Call.material = [⟨.next, ()⟩] := by
  by_cases hm : req.method = "OPTIONS"
  · rw [runTrace, exec_use_options hm]
    rfl
  obtain ⟨-, hnoise, -⟩ := @run_finish cfg env req hm
  rcases pipeline_paths cfg env (runContext env req) (openingTrace env req) with
    ⟨-, tr', hx, hquiet⟩ | ⟨hpath, -⟩
  · rw [runTrace, hnoise.only, hx]
    simp [finish, exec_tryCatch, writeOutcome, (opening_noise.trans hquiet).only, Call.material]
  · rw [runContext_reqPath] at hpath
    exact absurd (h.resolve_left hm) hpath

/-- What the run of any other request asks first. -/
theorem asked_unless_exempt (cfg : GatewayConfig) (env : Env Call Reply) (h : ¬ req.Exempt) :
    ∃ ans rest, (runTrace cfg env req).only Call.material = ⟨.authenticate req, ans⟩ :: rest := by
  have hm : req.method ≠ "OPTIONS" := fun hm => h (.inl hm)
  rcases pipeline_paths cfg env (runContext env req) (openingTrace env req) with
    ⟨hpath, -⟩ | ⟨-, tr', hquiet, hx⟩
  · rw [runContext_reqPath] at hpath
    exact absurd (.inr hpath) h
  · obtain ⟨tr₀, ans, more, h₀, hauth⟩ := authenticates_first env (runContext env req) tr' cfg
      (revocationStage cfg :: authOnlyShortCircuitStage cfg :: scoredStages cfg)
    rw [runContext_req, ← hx] at hauth
    obtain ⟨after, hafter⟩ := @stagesRun_in_order env cfg req hm
    have hopening : tr₀.only Call.material = [] := ((opening_noise.trans hquiet).trans h₀).only
    refine ⟨ans, Trace.only Call.material (more ++ after), ?_⟩
    rw [← hafter, stagesRun, hauth, List.append_assoc, Trace.only_append, hopening]
    rfl

/-- The exempt requests are those of which the gateway asks nothing at all: they are handed on, and
of every other request it asks first whether its token is valid. -/
theorem exempt_exact (cfg : GatewayConfig) (env : Env Call Reply) (req : Request) :
    (req.Exempt ↔ (runTrace cfg env req).only Call.material = [⟨.next, ()⟩]) ∧
      (¬ req.Exempt → ∃ ans rest,
        (runTrace cfg env req).only Call.material = ⟨.authenticate req, ans⟩ :: rest) := by
  refine ⟨⟨exempt_handed_on, fun h => ?_⟩, asked_unless_exempt cfg env⟩
  by_contra hex
  obtain ⟨ans, rest, hasked⟩ := asked_unless_exempt cfg env hex
  rw [hasked] at h
  cases h

end ZTG
