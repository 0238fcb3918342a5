import ZtGateway.Spec.Pipeline
import ZtGateway.Sanity.Audit

/-! What each stage does on the path that continues: the state it leaves and the
exact calls it made, with their answers. -/

namespace ZTG

open Act

variable {env : Env Call Reply} {s s' : StageContext} {tr tr' : Trace Call Reply}
  {cfg : GatewayConfig}

theorem publicBypass_continue
    (h : exec env publicBypassStage.run s tr = ((.ok .continue_, s'), tr')) :
    s' = s ∧ tr' = tr ∧ s.reqPath ∉ PUBLIC_PATHS := by
  simp only [publicBypassStage, exec_bind, exec_get] at h
  split_ifs at h with hp
  · simp at h
  · simp only [exec_pure, Prod.mk.injEq, true_and] at h
    exact ⟨h.1.symm, h.2.symm, by simpa using hp⟩

theorem honeypotBypass_continue
    (h : exec env honeypotBypassStage.run s tr = ((.ok .continue_, s'), tr')) :
    s' = s ∧ tr' = tr ∧ s.reqPath ∉ HONEYPOT_PATHS := by
  simp only [honeypotBypassStage, exec_bind, exec_get] at h
  split_ifs at h with hp
  · simp at h
  · simp only [exec_pure, Prod.mk.injEq, true_and] at h
    exact ⟨h.1.symm, h.2.symm, by simpa using hp⟩

/-- the state `AuthStage` leaves -/
def StageContext.withClaims (s : StageContext) (claims : UserClaims) : StageContext :=
  { s with claims := some claims,
           req := { s.req with user := some claims, gatewayValidated := true } }

theorem auth_continue (h : exec env (authStage cfg).run s tr = ((.ok .continue_, s'), tr')) :
    ∃ claims, s' = s.withClaims claims ∧ tr' = tr ++ [⟨.authenticate s.req, .ok (.ok claims)⟩] := by
  simp only [authStage] at h
  rw [exec_bind, exec_get] at h
  simp only [] at h
  rw [exec_bind, exec_call] at h
  rcases ho : env tr (.authenticate s.req) with e | ⟨claims | ⟨reason, message⟩⟩
  · simp [ho] at h
  · simp only [ho, id_eq, exec_bind, exec_modify, exec_pure, Prod.mk.injEq, true_and] at h
    exact ⟨claims, h.1.symm, h.2.symm⟩
  · simp only [ho, id_eq] at h
    exact absurd h (Returns.not_ok (.bind fun _ => .bind fun _ => .bind fun _ => .pure (by simp)))

theorem revocation_continue {claims : UserClaims} (hc : s.claims = some claims)
    (h : exec env (revocationStage cfg).run s tr = ((.ok .continue_, s'), tr')) :
    s' = s ∧ tr' = tr ++ [⟨.isRevoked claims.jti, .ok false⟩] := by
  simp only [revocationStage] at h
  rw [exec_bind, exec_get] at h
  simp only [hc] at h
  rw [exec_bind, exec_call] at h
  rcases ho : env tr (.isRevoked claims.jti) with e | _ | _
  · simp [ho] at h
  · simp only [ho, id_eq, Bool.not_false, ↓reduceIte, exec_pure, Prod.mk.injEq, true_and] at h
    exact ⟨h.1.symm, h.2.symm⟩
  · simp only [ho, id_eq, Bool.not_true, Bool.false_eq_true, ↓reduceIte] at h
    exact absurd h (Returns.not_ok (.bind fun _ => .pure (by simp)))

theorem authOnly_continue
    (h : exec env (authOnlyShortCircuitStage cfg).run s tr = ((.ok .continue_, s'), tr')) :
    s' = s ∧ tr' = tr ∧ isAuthOnlyPath s.reqPath = false := by
  simp only [authOnlyShortCircuitStage] at h
  rw [exec_bind, exec_get] at h
  simp only [] at h
  split_ifs at h with hp
  · simp only [exec_pure, Prod.mk.injEq, true_and] at h
    exact ⟨h.1.symm, h.2.symm, by simpa using hp⟩
  · rcases hc : s.claims with _ | claims
    · simp [hc] at h
    · simp only [hc] at h
      exact absurd h (Returns.not_ok (.bind fun _ => .pure (by simp)))

def StageContext.signals (s : StageContext) (claims : UserClaims) : TrustContext :=
  { userId := claims.userId, deviceId := claims.deviceId, ip := extractIp s.req,
    ja4h := s.ja4h.getD "" }

/-- the demo header's score, if demo mode answered `active` -/
def StageContext.demoScore (s : StageContext) (cfg : GatewayConfig) (active : Bool) :
    Option JsNum :=
  if active then parseDemoOverride cfg.platform (s.req.headers.lookup "x-demo-trust-score")
  else none

/-- the state `TrustScoreStage` leaves -/
def StageContext.withScore (s : StageContext) (claims : UserClaims) (override : Option JsNum)
    (score : JsNum) : StageContext :=
  { s with trustScore := some score, trustCtx := some (s.signals claims),
           trustOverride := s.trustOverride || override.isSome,
           req := { s.req with trustScore := some score } }

/-- what `TrustScoreStage` asked for a score: nothing when the demo header gave it -/
def scoreCalls (ctx : TrustContext) (override : Option JsNum) (score : JsNum) : Trace Call Reply :=
  match override with
  | some _ => []
  | none => [⟨.evaluateScore ctx, .ok score⟩]

theorem trustScore_continue {claims : UserClaims} (hc : s.claims = some claims)
    (h : exec env (trustScoreStage cfg).run s tr = ((.ok .continue_, s'), tr')) :
    ∃ active score, (∀ v, s.demoScore cfg active = some v → score = v) ∧
      s' = s.withScore claims (s.demoScore cfg active) score ∧
      tr' = tr ++ [⟨.demoModeActive, active⟩] ++
        scoreCalls (s.signals claims) (s.demoScore cfg active) score := by
  simp only [trustScoreStage] at h
  rw [exec_bind, exec_get] at h
  simp only [hc] at h
  rw [exec_bind, exec_call] at h
  simp only [] at h
  generalize env tr Call.demoModeActive = active at h
  have hd : (if active = true then
      parseDemoOverride cfg.platform (List.lookup "x-demo-trust-score" s.req.headers)
    else none) = s.demoScore cfg active := rfl
  rw [hd] at h
  rcases hv : s.demoScore cfg active with _ | v
  · simp only [hv] at h
    rw [exec_bind, exec_call] at h
    rcases ho : env (tr ++ [⟨.demoModeActive, active⟩]) (.evaluateScore (s.signals claims)) with
      e | score <;>
      simp only [StageContext.signals] at ho
    · simp [ho] at h
    · simp only [ho, id_eq, exec_bind, exec_modify, exec_pure, Prod.mk.injEq, true_and] at h
      exact ⟨active, score, by simp [hv],
        by simp [hv, ← h.1, StageContext.withScore, StageContext.signals],
        by simp [hv, scoreCalls, ← h.2, StageContext.signals]⟩
  · simp only [hv, exec_bind, exec_modify, exec_pure, Prod.mk.injEq, true_and] at h
    exact ⟨active, v, by simp [hv],
      by simp [hv, ← h.1, StageContext.withScore, StageContext.signals],
      by simp [hv, scoreCalls, ← h.2]⟩

/-- what `HashcashStage` asked before it continued: a verified solution, for a score over the
threshold -/
def WorkCalls (cfg : GatewayConfig) (req : Request) (claims : UserClaims) (score : JsNum)
    (calls : Trace Call Reply) : Prop :=
  if score.le cfg.threshold then calls = []
  else ∃ nonce solution iat, req.header "x-hashcash-nonce" = some nonce ∧
    req.header "x-hashcash-solution" = some solution ∧
    calls = [⟨.verifySolution nonce solution score claims.userId claims.deviceId, .ok (.ok iat)⟩]

private theorem getD_empty {x : Option String} (h : x.getD "" ≠ "") : x = some (x.getD "") := by
  cases x with
  | none => simp at h
  | some v => rfl

private theorem issueHashcash_returns (ctx : StageContext) (claims : UserClaims) (score : JsNum)
    (code : String) :
    (issueHashcash cfg ctx claims score code).Returns (· ≠ .continue_) :=
  .bind fun _ => .pure (by simp)

theorem hashcash_continue {claims : UserClaims} {score : JsNum} (hc : s.claims = some claims)
    (hs : s.trustScore = some score)
    (h : exec env (hashcashStage cfg).run s tr = ((.ok .continue_, s'), tr')) :
    ∃ calls, s' = s ∧ tr' = tr ++ calls ∧ WorkCalls cfg s.req claims score calls := by
  simp only [hashcashStage] at h
  rw [exec_bind, exec_get] at h
  simp only [hc, hs] at h
  unfold WorkCalls
  split_ifs at h ⊢ with hle hempty hlen
  · simp only [exec_pure, Prod.mk.injEq, true_and] at h
    exact ⟨[], h.1.symm, by simp [h.2], rfl⟩
  · exact absurd h (Returns.not_ok (issueHashcash_returns _ _ _ _))
  · exact absurd h (Returns.not_ok (issueHashcash_returns _ _ _ _))
  · rw [exec_bind, exec_call] at h
    obtain ⟨hn, hsol⟩ : (s.req.header "x-hashcash-nonce").getD "" ≠ "" ∧
        (s.req.header "x-hashcash-solution").getD "" ≠ "" := by simpa using hempty
    rcases ho : env tr (.verifySolution ((s.req.header "x-hashcash-nonce").getD "")
      ((s.req.header "x-hashcash-solution").getD "") score claims.userId claims.deviceId) with
      e | iat | reason
    · simp [ho] at h
    · simp only [ho, id_eq, exec_pure, Prod.mk.injEq, true_and] at h
      exact ⟨_, h.1.symm, h.2.symm, _, _, iat, getD_empty hn, getD_empty hsol, rfl⟩
    · simp only [ho, id_eq] at h
      exact absurd h (Returns.not_ok (issueHashcash_returns _ _ _ _))

theorem policy_continue (h : exec env policyStage.run s tr = ((.ok .continue_, s'), tr')) :
    ∃ d, s' = { s with policyDecision := some d } ∧ tr' = tr ++ [⟨.evaluate s.req, .ok d⟩] := by
  simp only [policyStage] at h
  rw [exec_bind, exec_get] at h
  simp only [] at h
  rw [exec_bind, exec_call] at h
  rcases ho : env tr (.evaluate s.req) with e | d
  · simp [ho] at h
  · simp only [ho, id_eq, exec_bind, exec_modify, exec_pure, Prod.mk.injEq, true_and] at h
    exact ⟨d, h.1.symm, h.2.symm⟩

/-- what `MfaPromotionStage` asked before it continued: nothing on ALLOW, a valid token on
CHALLENGE -/
def PromotionCalls (s : StageContext) (claims : UserClaims) (d : PolicyDecision)
    (calls : Trace Call Reply) : Prop :=
  d.decision = .allow ∧ calls = [] ∨
    d.decision = .challenge ∧ ∃ token minted, s.req.header "x-mfa-token" = some token ∧
      calls = [⟨.validateMfaToken token claims.userId claims.deviceId (extractIp s.req) s.ja4h,
        .ok (.ok minted)⟩]

theorem rejectMfa_returns (ctx : StageContext) (claims : UserClaims) :
    (rejectMfa cfg ctx claims).Returns (· ≠ .continue_) := by
  refine .bind fun _ => .bind fun _ => .bind fun _ => .bind fun ch => ?_
  rcases ch with ⟨id, expiresAt⟩ | ⟨_ | _⟩
  · simp only [buildMfaChallengeOutcome]
    cases cfg.platform.toISOString expiresAt with
    | error e => exact .throw e
    | ok iso => exact .pure (by simp)
  · exact .pure (by simp)
  · exact .pure (by simp)

theorem mfaPromotion_continue {claims : UserClaims} {d : PolicyDecision}
    (hc : s.claims = some claims) (hd : s.policyDecision = some d)
    (h : exec env (mfaPromotionStage cfg).run s tr = ((.ok .continue_, s'), tr')) :
    ∃ calls, s' = s ∧ tr'.only Call.material = tr.only Call.material ++ calls ∧
      PromotionCalls s claims d calls := by
  simp only [mfaPromotionStage] at h
  rw [exec_bind, exec_get] at h
  simp only [hc, hd] at h
  rcases hdec : d.decision with _ | _ | _ <;> simp only [hdec] at h
  · simp only [exec_pure, Prod.mk.injEq, true_and] at h
    exact ⟨[], h.1.symm, by simp [h.2], .inl ⟨hdec, rfl⟩⟩
  · split_ifs at h with hempty
    · exact absurd h (Returns.not_ok (rejectMfa_returns _ _))
    · rw [exec_bind, exec_call] at h
      rcases ho : env tr (.validateMfaToken ((s.req.header "x-mfa-token").getD "") claims.userId
        claims.deviceId (extractIp s.req) s.ja4h) with e | minted | reason
      · simp [ho] at h
      · simp only [ho, id_eq, exec_bind, exec_tell, exec_pure, Prod.mk.injEq, true_and] at h
        exact ⟨_, h.1.symm, by simp [← h.2, Call.material],
          .inr ⟨hdec, _, minted, getD_empty hempty, rfl⟩⟩
      · simp only [ho, id_eq] at h
        exact absurd h (Returns.not_ok (rejectMfa_returns _ _))
  · exact absurd h (Returns.not_ok (.bind fun _ => .bind fun _ => .pure (by simp)))

/-- The ALLOW row is written before the stage continues; an exhausted write is thrown. -/
theorem exec_auditAllow {claims : UserClaims} (hc : s.claims = some claims) :
    ∃ r calls tr', exec env (auditAllowStage cfg).run s tr = ((r.map fun _ => .continue_, s), tr') ∧
      tr'.only Call.material = tr.only Call.material ++ calls ∧
      WriteResult cfg.audit (auditRow s claims .allow) cfg.audit.walMaxRetries r calls := by
  obtain ⟨r, calls, tr', hx, htr, hr⟩ := @exec_writeBlockingFrom env s
    (tr ++ [⟨.now, env tr .now⟩]) cfg.audit (auditRow s claims .allow) cfg.audit.walMaxRetries
  have hlog : auditLog cfg.audit (auditRow s claims .allow) =
      writeBlockingFrom cfg.audit (auditRow s claims .allow) cfg.audit.walMaxRetries := rfl
  refine ⟨r, calls, ?_⟩
  simp only [auditAllowStage]
  rw [exec_bind, exec_get]
  simp only [hc]
  rw [exec_bind, exec_call]
  simp only []
  rw [exec_bind, hlog, hx]
  rcases r with e | _
  · exact ⟨_, rfl, by simpa [Call.material] using htr, hr⟩
  · exact ⟨_, rfl, by simpa [Call.material] using htr, hr⟩

theorem proxy_continue {claims : UserClaims} {score : JsNum} (hc : s.claims = some claims)
    (hs : s.trustScore = some score)
    (h : exec env proxyStage.run s tr = ((.ok .continue_, s'), tr')) :
    ∃ up, s' = { s with upstreamStatus := some up.status, upstreamBody := some up.data } ∧
      tr' = tr ++ [⟨.forward s.req claims score, .ok up⟩] := by
  simp only [proxyStage] at h
  rw [exec_bind, exec_get] at h
  simp only [hc, hs] at h
  rw [exec_bind, exec_call] at h
  rcases ho : env tr (.forward s.req claims score) with e | up
  · simp [ho] at h
  · simp only [ho, id_eq, exec_bind, exec_modify, exec_pure, Prod.mk.injEq, true_and] at h
    exact ⟨up, h.1.symm, h.2.symm⟩

theorem boplaStrip_continue {claims : UserClaims} (hc : s.claims = some claims)
    (h : exec env boplaStripStage.run s tr = ((.ok .continue_, s'), tr')) :
    ∃ body removed, s' = { s with strippedBody := body, boplaRemoved := removed } ∧
      ∃ ans, tr' = tr ++ [⟨.strip s.upstreamBody s.reqPath claims.roles, ans⟩] := by
  simp only [boplaStripStage] at h
  rw [exec_bind, exec_get] at h
  simp only [hc] at h
  rw [exec_bind, exec_call] at h
  rcases ho : env tr (.strip s.upstreamBody s.reqPath claims.roles) with e | stripped
  · simp [ho] at h
  · simp only [ho, id_eq, exec_bind, exec_modify, exec_pure, Prod.mk.injEq, true_and] at h
    exact ⟨_, _, h.1.symm, _, h.2.symm⟩

/-- The last stage records at most once, and only for a status below 400. -/
theorem exec_recordTrustContext :
    ∃ calls, (exec env recordTrustContextStage.run s tr).2 = tr ++ calls ∧
      (calls = [] ∨ ∃ status trustCtx score r, s.upstreamStatus = some status ∧ status < 400 ∧
        s.trustCtx = some trustCtx ∧ s.trustScore = some score ∧
        calls = [⟨.recordAllowOutcome trustCtx score, r⟩]) := by
  simp only [recordTrustContextStage]
  rw [exec_bind, exec_get]
  rcases hu : s.upstreamStatus with _ | status
  · exact ⟨[], by simp [hu], .inl rfl⟩
  simp only [hu]
  split_ifs with hlt
  · rcases ht : s.trustCtx with _ | trustCtx
    · exact ⟨[], by simp, .inl rfl⟩
    rcases hs : s.trustScore with _ | score
    · exact ⟨[], by simp, .inl rfl⟩
    simp only []
    rw [exec_bind, recordTrustContextAfterAllow]
    split_ifs with hnan
    · exact ⟨[], by simp, .inl rfl⟩
    · refine ⟨[⟨.recordAllowOutcome trustCtx score, env tr (.recordAllowOutcome trustCtx score)⟩],
        ?_, .inr ⟨status, trustCtx, score, _, rfl, hlt, rfl, rfl, rfl⟩⟩
      rw [exec_call]
      cases env tr (.recordAllowOutcome trustCtx score) <;> rfl
  · exact ⟨[], by simp, .inl rfl⟩

/-- The stages around the upstream call: what they call, and that they never step aside. -/
theorem boplaStrip_within {allowed : Call → Prop} (hs : ∀ d p r, allowed (.strip d p r)) :
    boplaStripStage.run.Within allowed (· ≠ .bypass) := by
  refine .bind .get fun ctx => ?_
  cases ctx.claims with
  | none => exact .throw _
  | some claims =>
    exact .bind (.call (hs _ _ _) _) fun _ => .bind (.modify _) fun _ => .pure (by simp)

theorem upstreamStage_within {allowed : Call → Prop} (hn : ∀ op, op.material = false → allowed op)
    (hi : ∀ row, allowed (.auditInsert row)) (hf : ∀ r c sc, allowed (.forward r c sc))
    (hs : ∀ d p r, allowed (.strip d p r)) {st : PipelineStage}
    (hst : st ∈ [auditAllowStage cfg, proxyStage, boplaStripStage]) :
    st.run.Within allowed (· ≠ .bypass) := by
  simp only [List.mem_cons, List.not_mem_nil, or_false] at hst
  rcases hst with rfl | rfl | rfl
  · refine .bind .get fun ctx => ?_
    cases ctx.claims with
    | none => exact .throw _
    | some claims =>
      refine .bind (.call (hn _ rfl) _) fun _ => .bind ?_ fun _ => ?_
      · exact writeBlockingFrom_uses _ _ (hi _) fun _ => hn _ rfl
      · exact .bind (.call (hn _ rfl) _) fun _ => .bind (.tell (hn _ rfl)) fun _ => .pure (by simp)
  · refine .bind .get fun ctx => ?_
    rcases ctx.claims with _ | claims
    · exact .throw _
    · rcases ctx.trustScore with _ | score
      · exact .throw _
      · exact .bind (.call (hf _ _ _) _) fun _ => .bind (.modify _) fun _ => .pure (by simp)
  · exact boplaStrip_within hs

theorem recordTrustContext_within {allowed : Call → Prop}
    (hr : ∀ c sc, allowed (.recordAllowOutcome c sc)) :
    recordTrustContextStage.run.Within allowed (· ≠ .bypass) := by
  refine .bind .get fun ctx => ?_
  rcases ctx.upstreamStatus with _ | status
  · exact .throw _
  · simp only []
    split_ifs
    · rcases ctx.trustCtx with _ | trustCtx
      · exact .throw _
      · rcases ctx.trustScore with _ | score
        · exact .throw _
        · refine .bind ?_ fun _ => .pure (by simp)
          unfold recordTrustContextAfterAllow
          split_ifs
          · exact .throw _
          · exact .call (hr _ _) _
    · exact .pure (by simp)

end ZTG
