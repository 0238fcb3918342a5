import ZtGateway.Proofs.Forward
import ZtGateway.Spec.Policy
import ZtGateway.Spec.TrustScore

/-! A terminal fingerprint: the store's answer, the score, the decision and the whole
run, one after the other. -/

namespace ZTG

open Act

theorem FingerprintStore.LiveTerminal.isTerminal {st : FingerprintStore} {now : ℕ}
    {fingerprint : String} (h : st.LiveTerminal now fingerprint) :
    st.isTerminal now fingerprint = (true, st) := by
  obtain ⟨entry, hget, hlive, hterm⟩ := h
  simp only [FingerprintStore.isTerminal, FingerprintStore.check, hget, hterm]
  exact if_neg (not_le.mpr hlive)

theorem evaluateScore_terminal (literal : ℚ → JsNum) (add : JsNum → JsNum → JsNum)
    {store : FingerprintStore} {now : ℕ} (signals : SignalAnswers) {ctx : TrustContext}
    (h : store.LiveTerminal now ctx.ja4h) :
    (TrustScoreService.evaluateScore literal add store now signals ctx).1 = .num 1 := by
  simp [TrustScoreService.evaluateScore, h.isTerminal]

/-- At every level the validated deny threshold is at most 1. -/
theorem ValidPolicyConfig.denyAt_le_one (cfg : ValidPolicyConfig) (level : ThreatLevel) :
    cfg.denyAt level ≤ 1 := by
  have h := cfg.fields
  simp only [PolicyConfig.fieldsValid, PolicyConfig.unit, Bool.and_eq_true, List.all_cons,
    decide_eq_true_eq] at h
  cases level with
  | normal => exact h.1.1.2.1.2
  | elevated => exact h.1.1.2.2.2.1.2
  | critical => exact h.1.1.2.2.2.2.2.1.2

open PolicyEvaluatorService in
/-- A request that carries score 1 is denied, whatever the enforcer and the ladder say. -/
theorem evaluate_deny (cfg : ValidPolicyConfig) (evaluateScore : TrustContext → JsNum)
    (enforce : Enforce) (threat : ThreatState) (t : Readings) {req : Request}
    (h : req.trustScore = some (.num 1)) :
    (evaluate cfg.toPolicyConfig evaluateScore enforce threat t req).decision.decision = .deny := by
  unfold evaluate
  cases req.user with
  | none => rfl
  | some user =>
    have hscore : scoreOf evaluateScore req user = .num 1 := by simp [scoreOf, h]
    simp only [hscore]
    cases matchSubject enforce (policyObject req) (normalizeAction req.method) 0
      (buildSubjects user) with
    | error e => rfl
    | ok sub =>
      cases sub with
      | none => rfl
      | some sub =>
        have hle : ∀ level, JsNum.le (.num (cfg.denyAt level)) (.num 1) = true := fun level =>
          decide_eq_true (cfg.denyAt_le_one level)
        simp [mapScore, ThreatState.currentDenyThreshold, hle]

/-- The services behind a run, as they are when a call reaches them: the rest of the world may
change the store, the clock and the ladder between any two calls. -/
structure Backing (cfg : PolicyConfig) (env : Env Call Reply) where
  literal : ℚ → JsNum
  add : JsNum → JsNum → JsNum
  store : Trace Call Reply → FingerprintStore
  clock : Trace Call Reply → ℕ
  signals : Trace Call Reply → SignalAnswers
  enforce : Trace Call Reply → PolicyEvaluatorService.Enforce
  threat : Trace Call Reply → ThreatState
  readings : Trace Call Reply → PolicyEvaluatorService.Readings
  evaluateScore : ∀ tr ctx, env tr (.evaluateScore ctx) =
    .ok (TrustScoreService.evaluateScore literal add (store tr) (clock tr) (signals tr) ctx).1
  evaluate : ∀ tr req, env tr (.evaluate req) =
    .ok (PolicyEvaluatorService.evaluate cfg
      (fun ctx =>
        (TrustScoreService.evaluateScore literal add (store tr) (clock tr) (signals tr) ctx).1)
      (enforce tr) (threat tr) (readings tr) req).decision

variable {cfg : GatewayConfig} {env : Env Call Reply} {req : Request}

private theorem not_evaluate_of_noise {op : Call} (h : op.material = false) :
    op.isEvaluate = false := by
  cases op <;> simp_all [Call.material, Call.isEvaluate]

private theorem not_evaluate_of_closing {op : Call} (h : op.closing = true) :
    op.isEvaluate = false := by
  cases op <;> simp_all [Call.closing, Call.material, Call.isEvaluate]

private theorem lastStages_noEvaluate : (runStages (wrapStages [mfaPromotionStage cfg,
    auditAllowStage cfg, proxyStage, boplaStripStage, recordTrustContextStage])).Uses
      fun op => op.isEvaluate = false := by
  refine runStages_uses (fun _ => not_evaluate_of_noise) fun st hst => ?_
  by_cases hm : st = mfaPromotionStage cfg
  · exact Uses.mono (fun op hop => (Call.front_rejects hop).2) (@stage_quiet cfg st (by simp [hm]))
  by_cases hr : st = recordTrustContextStage
  · subst hr
    exact (recordTrustContext_within fun _ _ => rfl).uses
  · refine (@upstreamStage_within cfg _ (fun _ => not_evaluate_of_noise) (fun _ => rfl)
      (fun _ _ _ => rfl) (fun _ _ _ => rfl) st ?_).uses
    simp only [List.mem_cons, List.not_mem_nil, or_false, hm, hr, false_or] at hst ⊢
    exact hst

private theorem exec_policy {s : StageContext} {tr : Trace Call Reply} :
    (exec env policyStage.run s tr).2 = tr ++ [⟨.evaluate s.req, env tr (.evaluate s.req)⟩] := by
  simp only [policyStage]
  rw [exec_bind, exec_get]
  simp only []
  rw [exec_bind, exec_call]
  cases env tr (.evaluate s.req) <;> rfl

/-- What these events ask of the evaluator is about `r`. -/
private def AsksAbout (r : Request) (new : Trace Call Reply) : Prop :=
  ∀ e ∈ new, ∀ r', e.op = .evaluate r' → r' = r

private theorem AsksAbout.of_quiet {r : Request} {new : Trace Call Reply}
    (h : ∀ e ∈ new, e.op.isEvaluate = false) : AsksAbout r new := by
  intro e he r' hop
  simpa [hop, Call.isEvaluate] using h e he

private theorem AsksAbout.append {r : Request} {new new' : Trace Call Reply}
    (h : AsksAbout r new) (h' : AsksAbout r new') : AsksAbout r (new ++ new') := by
  intro e he
  rcases List.mem_append.mp he with he | he
  · exact h e he
  · exact h' e he

private theorem AsksAbout.of_noise {r : Request} {new : Trace Call Reply}
    (h : ∀ e ∈ new, e.op.material = false) : AsksAbout r new :=
  .of_quiet fun e he => not_evaluate_of_noise (h e he)

private theorem policyOn_evaluate {s : StageContext} {tr : Trace Call Reply} :
    ∃ new, (exec env (runStages (wrapStages [policyStage, mfaPromotionStage cfg,
        auditAllowStage cfg, proxyStage, boplaStripStage, recordTrustContextStage])) s tr).2 =
          tr ++ new ∧ AsksAbout s.req new := by
  obtain ⟨_, tr₁, ⟨n₀, rfl, hn₀⟩, ⟨n₁, rfl, hn₁⟩, hx⟩ := @exec_runStages_cons env s tr policyStage
  have hasked : AsksAbout s.req
      (n₀ ++ [⟨.evaluate s.req, env (tr ++ n₀) (.evaluate s.req)⟩] ++ n₁) := by
    refine ((AsksAbout.of_noise hn₀).append fun e he r' hop => ?_).append (AsksAbout.of_noise hn₁)
    rw [List.mem_singleton.mp he] at hop
    exact (Call.evaluate.inj hop).symm
  have htr := @exec_policy env s (tr ++ n₀)
  rw [hx]
  rcases hr : exec env policyStage.run s (tr ++ n₀) with ⟨⟨r, s₁⟩, tr₁⟩
  rw [hr] at htr
  have htr₁ : tr₁ ++ n₁ =
      tr ++ (n₀ ++ [⟨.evaluate s.req, env (tr ++ n₀) (.evaluate s.req)⟩] ++ n₁) := by
    simp only at htr
    simp [htr]
  simp only [htr₁]
  rcases r with e | outcome
  · exact ⟨_, rfl, hasked⟩
  · cases outcome with
    | continue_ =>
      obtain ⟨more, hmore, hm⟩ := exec_uses (@lastStages_noEvaluate cfg) env s₁
        (tr ++ (n₀ ++ [⟨.evaluate s.req, env (tr ++ n₀) (.evaluate s.req)⟩] ++ n₁))
      exact ⟨_, by rw [hmore, List.append_assoc], hasked.append (.of_quiet hm)⟩
    | bypass => exact ⟨_, rfl, hasked⟩
    | shortCircuit status body headers challenge => exact ⟨_, rfl, hasked⟩
    | proxied status body => exact ⟨_, rfl, hasked⟩

/-- The stages from the proof of work on: whatever is asked of the evaluator is asked by
`PolicyStage`, about the request as it was before them. -/
private theorem workOn_evaluate {s : StageContext} {tr : Trace Call Reply} {claims : UserClaims}
    {score : JsNum} (hc : s.claims = some claims) (hs : s.trustScore = some score) :
    ∃ new, (exec env (runStages (wrapStages [hashcashStage cfg, policyStage, mfaPromotionStage cfg,
        auditAllowStage cfg, proxyStage, boplaStripStage, recordTrustContextStage])) s tr).2 =
          tr ++ new ∧ AsksAbout s.req new := by
  obtain ⟨_, tr₁, ⟨n₀, rfl, hn₀⟩, ⟨n₁, rfl, hn₁⟩, hx⟩ :=
    @exec_runStages_cons env s tr (hashcashStage cfg)
  obtain ⟨work, hwork, hquiet⟩ :=
    exec_uses (@stage_quiet cfg (hashcashStage cfg) (by simp)) env s (tr ++ n₀)
  have hasked : AsksAbout s.req (n₀ ++ work ++ n₁) :=
    ((AsksAbout.of_noise hn₀).append (.of_quiet fun e he =>
      (Call.front_rejects (hquiet e he)).2)).append (.of_noise hn₁)
  rw [hx]
  rcases hr : exec env (hashcashStage cfg).run s (tr ++ n₀) with ⟨⟨r, s₁⟩, tr₁⟩
  rw [hr] at hwork
  have htr₁ : tr₁ ++ n₁ = tr ++ (n₀ ++ work ++ n₁) := by
    simp only at hwork
    simp [hwork]
  simp only [htr₁]
  rcases r with e | outcome
  · exact ⟨_, rfl, hasked⟩
  · cases outcome with
    | continue_ =>
      -- the state is as before the proof of work
      obtain ⟨_, rfl, -, -⟩ := hashcash_continue hc hs hr
      obtain ⟨more, hmore, hm⟩ := @policyOn_evaluate cfg env s₁ (tr ++ (n₀ ++ work ++ n₁))
      exact ⟨_, by rw [hmore, List.append_assoc], hasked.append hm⟩
    | bypass => exact ⟨_, rfl, hasked⟩
    | shortCircuit status body headers challenge => exact ⟨_, rfl, hasked⟩
    | proxied status body => exact ⟨_, rfl, hasked⟩

private theorem pipeline_scoring (cfg : GatewayConfig) :
    PIPELINE_STAGES cfg = wrapStages (scoringStages cfg ++ [hashcashStage cfg, policyStage,
      mfaPromotionStage cfg, auditAllowStage cfg, proxyStage, boplaStripStage,
      recordTrustContextStage]) := rfl

/-- Once the request is scored, the run goes on from there. -/
private theorem run_scored (hm : req.method ≠ "OPTIONS") {s₁ : StageContext}
    {tr₁ : Trace Call Reply} (h : scoring cfg env req = ((.ok .continue_, s₁), tr₁)) :
    ∃ post, runTrace cfg env req = tr₁ ++ post ∧ AsksAbout s₁.req post := by
  obtain ⟨rest, hrest, hclose⟩ :=
    @guarded_closing env (runContext env req) (openingTrace env req) (PIPELINE_STAGES cfg)
  obtain ⟨claims, active, score, -, -, -, -, hs₁, -⟩ := scoring_continue h
  obtain ⟨new, hnew, hasked⟩ := @workOn_evaluate cfg env s₁ tr₁ claims score
    (by rw [hs₁]; rfl) (by rw [hs₁]; rfl)
  unfold scoring at h
  refine ⟨new ++ rest, ?_, hasked.append (.of_quiet fun e he =>
    not_evaluate_of_closing (hclose e he))⟩
  rw [runTrace_eq hm, hrest, pipeline_scoring, exec_runStages_append, h]
  simp only [hnew, List.append_assoc]

/-- A run that asks the evaluator has scored the request. -/
private theorem scored_of_evaluate {r : Request} {ans : Except Err PolicyDecision}
    (h : ⟨.evaluate r, ans⟩ ∈ runTrace cfg env req) :
    req.method ≠ "OPTIONS" ∧ ∃ s₁ tr₁, scoring cfg env req = ((.ok .continue_, s₁), tr₁) ∧
      r = s₁.req := by
  by_cases hm : req.method = "OPTIONS"
  · have : runTrace cfg env req = [⟨.next, ()⟩] := congrArg Prod.snd (exec_use_options hm)
    simp [this] at h
  refine ⟨hm, ?_⟩
  obtain ⟨noise, hnoise, hn⟩ := @opening_noise env req
  have hscoring : (runStages (wrapStages (scoringStages cfg))).Uses fun op => op.front = true :=
    runStages_uses (fun _ => Call.front_of_noise) fun st hst =>
      stage_quiet (List.mem_append_left _ hst)
  obtain ⟨new, hnew, hquiet⟩ :=
    exec_uses hscoring env (runContext env req) (openingTrace env req)
  have hearly : ∀ e ∈ (scoring cfg env req).2, e.op.isEvaluate = false := by
    intro e he
    rw [scoring, hnew, hnoise] at he
    rcases List.mem_append.mp he with he | he
    · exact not_evaluate_of_noise (hn e he)
    · exact (Call.front_rejects (hquiet e he)).2
  rcases hs : scoring cfg env req with ⟨⟨o, s₁⟩, tr₁⟩
  rw [hs] at hearly
  by_cases ho : o = .ok .continue_
  · subst ho
    obtain ⟨post, hpost, hasked⟩ := run_scored hm hs
    rw [hpost] at h
    rcases List.mem_append.mp h with h | h
    · simpa [Call.isEvaluate] using hearly _ h
    · exact ⟨s₁, tr₁, rfl, hasked _ h r rfl⟩
  · obtain ⟨rest, hrest, hclose⟩ :=
      @guarded_closing env (runContext env req) (openingTrace env req) (PIPELINE_STAGES cfg)
    have hstop : (exec env (runStages (wrapStages (scoringStages cfg))) (runContext env req)
        (openingTrace env req)).1.1 ≠ .ok .continue_ := by
      rw [show exec env (runStages (wrapStages (scoringStages cfg))) (runContext env req)
        (openingTrace env req) = _ from hs]
      exact ho
    rw [runTrace_eq hm, hrest, pipeline_scoring, exec_runStages_stopped _ hstop] at h
    rcases List.mem_append.mp h with h | h
    · have hearly' := hearly
      rw [show tr₁ = (scoring cfg env req).2 by rw [hs]] at hearly'
      simpa [Call.isEvaluate] using hearly' _ h
    · simpa [Call.isEvaluate] using not_evaluate_of_closing (hclose _ h)

/-- With demo mode off, the score comes from the trust service, and the store decides it. -/
private theorem scored_one {pcfg : PolicyConfig} (world : Backing pcfg env)
    (hdemo : ∀ tr, env tr .demoModeActive = false)
    (hlive : ∀ pre ctx ans post, runTrace cfg env req = pre ++ ⟨.evaluateScore ctx, ans⟩ :: post →
      (world.store pre).LiveTerminal (world.clock pre) (req.ja4h.getD ""))
    (hm : req.method ≠ "OPTIONS") {s₁ : StageContext} {tr₁ : Trace Call Reply}
    (h : scoring cfg env req = ((.ok .continue_, s₁), tr₁)) :
    s₁.trustScore = some (.num 1) ∧ s₁.req.trustScore = some (.num 1) := by
  obtain ⟨post, hpost, -⟩ := run_scored hm h
  obtain ⟨claims, active, score, -, -, -, -, rfl, htr⟩ := scoring_continue h
  have hasked : ∀ e ∈ [⟨.authenticate (runContext env req).req, .ok (.ok claims)⟩,
      ⟨.isRevoked claims.jti, .ok false⟩, ⟨.demoModeActive, active⟩] ++
      scoreCalls ((runContext env req).signals claims) ((runContext env req).demoScore cfg active)
        score, ∃ pre post, runTrace cfg env req = pre ++ e :: post ∧ e.ans = env pre e.op := by
    intro e he
    have hmem : e ∈ tr₁ := by
      have : e ∈ tr₁.only Call.material := htr ▸ List.mem_append_right _ he
      exact (Trace.mem_only.mp this).1
    obtain ⟨pre, post', hcut⟩ := List.append_of_mem
      (show e ∈ runTrace cfg env req from hpost ▸ List.mem_append_left _ hmem)
    exact ⟨pre, post', hcut, runTrace_answered cfg env req _ _ _ hcut⟩
  obtain ⟨_, _, -, hactive⟩ := hasked ⟨.demoModeActive, active⟩ (by simp)
  obtain rfl : active = false := hactive.trans (hdemo _)
  obtain ⟨pre, _, hcut, hans⟩ := hasked ⟨.evaluateScore ((runContext env req).signals claims),
    .ok score⟩ (by simp [scoreCalls, StageContext.demoScore])
  have hterminal := hlive _ _ _ _ hcut
  rw [← @runContext_ja4h env req] at hterminal
  have hone := (world.evaluateScore pre ((runContext env req).signals claims)).trans
    (congrArg _ (evaluateScore_terminal world.literal world.add (world.signals pre) hterminal))
  obtain rfl : score = .num 1 := by simpa using hans.trans hone
  exact ⟨rfl, rfl⟩

/-- A request whose fingerprint is live and terminal when it is scored: its score is 1, the
evaluator denies it, and it is not forwarded. -/
theorem terminal_never_forwarded (cfg : GatewayConfig) (pcfg : ValidPolicyConfig)
    (env : Env Call Reply) (req : Request) (world : Backing pcfg.toPolicyConfig env)
    (hdemo : ∀ tr, env tr .demoModeActive = false)
    (hlive : ∀ pre ctx ans post, runTrace cfg env req = pre ++ ⟨.evaluateScore ctx, ans⟩ :: post →
      (world.store pre).LiveTerminal (world.clock pre) (req.ja4h.getD "")) :
    (req.method ≠ "OPTIONS" → (scoring cfg env req).1.1 = .ok .continue_ →
      (scoring cfg env req).1.2.trustScore = some (.num 1)) ∧
    (∀ r ans, ⟨.evaluate r, ans⟩ ∈ runTrace cfg env req →
      r.trustScore = some (.num 1) ∧ ∃ d, ans = .ok d ∧ d.decision = .deny) ∧
    ∀ e ∈ runTrace cfg env req, e.op.isForward = false := by
  have hdeny : ∀ r ans, ⟨.evaluate r, ans⟩ ∈ runTrace cfg env req →
      r.trustScore = some (.num 1) ∧ ∃ d, ans = .ok d ∧ d.decision = .deny := by
    intro r ans h
    obtain ⟨hm, s₁, tr₁, hs, rfl⟩ := scored_of_evaluate h
    have hone := (scored_one world hdemo hlive hm hs).2
    obtain ⟨pre, post, hcut⟩ := List.append_of_mem h
    have hans := (runTrace_answered cfg env req _ _ _ hcut).trans (world.evaluate pre s₁.req)
    exact ⟨hone, _, hans, evaluate_deny pcfg _ _ _ _ hone⟩
  refine ⟨fun hm hc => ?_, hdeny, fun e he => ?_⟩
  · rcases hs : scoring cfg env req with ⟨⟨o, s₁⟩, tr₁⟩
    rw [hs] at hc
    simp only at hc
    subst hc
    exact (scored_one world hdemo hlive hm hs).1
  · by_contra hf
    obtain ⟨op, ans⟩ := e
    cases op <;> simp only [Call.isForward, not_true_eq_false] at hf
    obtain ⟨pre, post, hcut⟩ := List.append_of_mem he
    obtain ⟨g, fails, hat, -, -, -⟩ := forwarded_at hcut
    have hask : (⟨.evaluate (g.context cfg (runContext env req)).req, .ok g.decision⟩ :
        Event Call Reply) ∈ runTrace cfg env req := by
      have : (⟨.evaluate (g.context cfg (runContext env req)).req, .ok g.decision⟩ :
          Event Call Reply) ∈ Trace.only Call.gate pre := by
        rw [hat.pre_gate]; simp [GateAnswers.calls]
      rw [hcut]
      exact List.mem_append_left _ (Trace.mem_only.mp this).1
    -- the decision that let it through was not a DENY
    obtain ⟨-, d, hd, hdec⟩ := hdeny _ _ hask
    obtain rfl := Except.ok.inj hd
    rcases hat.opens.promotion with ⟨hallow, -⟩ | ⟨hchallenge, -⟩
    · simp [hallow] at hdec
    · simp [hchallenge] at hdec

/-- the default policy slice -/
def defaultPolicy : ValidPolicyConfig where
  challengeThreshold := 1 / 2
  denyThreshold := 4 / 5
  elevatedChallengeThreshold := 3 / 10
  elevatedDenyThreshold := 3 / 5
  criticalChallengeThreshold := 1 / 5
  criticalDenyThreshold := 2 / 5
  threatWindowMs := 300000
  threatWindowMaxEvents := 10000
  threatElevatedDenies := 20
  threatCriticalDenies := 50
  threatElevatedInvalidTokens := 30
  threatCriticalInvalidTokens := 80
  threatElevatedHoneypot := 5
  threatCriticalHoneypot := 15
  threatElevatedMfaRateLimited := 5
  threatCriticalMfaRateLimited := 15
  threatCooldownMs := 600000
  fields := by decide +kernel
  cross := by decide +kernel

/-- a scanner that hit a honeypot after its request was let through -/
def scannerRequest : Request := { sampleRequest with ja4h := some "scanner" }

def scannerStore : FingerprintStore := ({} : FingerprintStore).add 0 "scanner" 3600000 true

/-- the trust service over that store, with every signal down -/
def scannerScore (ctx : TrustContext) : JsNum :=
  (TrustScoreService.evaluateScore .num (fun a _ => a) scannerStore 0
    ⟨[], fun _ => .error (.error "")⟩ ctx).1

def scannerEnv : Env Call Reply := fun tr op =>
  match op with
  | .evaluateScore ctx => .ok (scannerScore ctx)
  | .evaluate req =>
    .ok (PolicyEvaluatorService.evaluate defaultPolicy.toPolicyConfig scannerScore
      (fun _ _ _ _ => .ok true) (.start 0) ⟨0, 0, 0⟩ req).decision
  | op => sampleEnv tr op

def scannerWorld : Backing defaultPolicy.toPolicyConfig scannerEnv where
  literal := .num
  add := fun a _ => a
  store := fun _ => scannerStore
  clock := fun _ => 0
  signals := fun _ => ⟨[], fun _ => .error (.error "")⟩
  enforce := fun _ _ _ _ _ => .ok true
  threat := fun _ => .start 0
  readings := fun _ => ⟨0, 0, 0⟩
  evaluateScore := fun _ _ => rfl
  evaluate := fun _ _ => rfl

private theorem scanner_live : scannerStore.LiveTerminal 0 "scanner" :=
  ⟨⟨(0 : ℕ) + 3600000, true⟩, rfl, by norm_num, rfl⟩

/-- whether a pipeline that ended so would go on -/
def continues (r : Except Err StageOutcome) : Bool :=
  r.toOption.any fun outcome =>
    StageOutcome.casesOn outcome true false (fun _ _ _ _ => false) fun _ _ => false

theorem eq_of_continues {r : Except Err StageOutcome} (h : continues r = true) :
    r = .ok .continue_ := by
  cases r with
  | error e => cases h
  | ok outcome =>
    cases outcome with
    | continue_ => rfl
    | bypass => cases h
    | shortCircuit => cases h
    | proxied => cases h

theorem scanner_scored :
    (scoring sampleConfig scannerEnv scannerRequest).1.1 = .ok .continue_ :=
  eq_of_continues (by decide +kernel)

theorem terminal_never_forwarded_scanner :
    (scoring sampleConfig scannerEnv scannerRequest).1.2.trustScore = some (.num 1) ∧
    (runTrace sampleConfig scannerEnv scannerRequest).any (·.op.isEvaluate) = true ∧
    ∀ e ∈ runTrace sampleConfig scannerEnv scannerRequest, e.op.isForward = false := by
  have h := terminal_never_forwarded sampleConfig defaultPolicy scannerEnv scannerRequest
    scannerWorld (fun _ => rfl) fun _ _ _ _ _ => scanner_live
  exact ⟨h.1 (by decide) scanner_scored, by decide +kernel, h.2.2⟩

end ZTG
