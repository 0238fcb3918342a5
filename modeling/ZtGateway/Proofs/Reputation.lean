import ZtGateway.Proofs.Forward

/-! Who earns reputation: the one call of `recordAllowOutcome` a run can make, and what
the run had done before it. -/

namespace ZTG

open Act

variable {cfg : GatewayConfig} {env : Env Call Reply} {req : Request}

def Call.isRecord : Call → Bool
  | .recordAllowOutcome .. => true
  | _ => false

private theorem not_record_of_sensitive {op : Call} (h : op.sensitive = false) :
    op.isRecord = false := by
  cases op <;> simp_all [Call.sensitive, Call.isRecord]

private theorem not_record_of_noise {op : Call} (h : op.material = false) :
    op.isRecord = false := by
  cases op <;> simp_all [Call.material, Call.isRecord]

private theorem not_record_of_closing {op : Call} (h : op.closing = true) :
    op.isRecord = false := by
  cases op <;> simp_all [Call.closing, Call.material, Call.isRecord]

/-- the stages before `RecordTrustContextStage` -/
def servingStages (cfg : GatewayConfig) : List PipelineStage :=
  gateStages cfg ++ [proxyStage, boplaStripStage]

/-- how those stages end in this run, the state they leave and the calls they made -/
def serving (cfg : GatewayConfig) (env : Env Call Reply) (req : Request) :
    (Except Err StageOutcome × StageContext) × Trace Call Reply :=
  exec env (runStages (wrapStages (servingStages cfg))) (runContext env req) (openingTrace env req)

private theorem upstreamStages_noRecord : (runStages (wrapStages
    [auditAllowStage cfg, proxyStage, boplaStripStage])).Uses fun op => op.isRecord = false :=
  runStages_uses (fun _ => not_record_of_noise) fun _ hst =>
    (upstreamStage_within (fun _ => not_record_of_noise) (fun _ => rfl) (fun _ _ _ => rfl)
      (fun _ _ _ => rfl) hst).uses

/-- No stage before the last one records. -/
private theorem serving_noRecord : ∀ e ∈ (serving cfg env req).2, e.op.isRecord = false := by
  have hsplit : servingStages cfg =
      frontStages cfg ++ [auditAllowStage cfg, proxyStage, boplaStripStage] := rfl
  obtain ⟨noise, hnoise, hn⟩ := @opening_noise env req
  obtain ⟨front, hfront, hquiet⟩ :=
    exec_uses (@frontStages_quiet cfg) env (runContext env req) (openingTrace env req)
  have hearly : ∀ e ∈ openingTrace env req ++ front, e.op.isRecord = false := by
    intro e he
    rcases List.mem_append.mp he with he | he
    · rw [hnoise] at he
      exact not_record_of_noise (hn e he)
    · exact not_record_of_sensitive (hquiet e he)
  rw [serving, hsplit, exec_runStages_append]
  rcases hr : exec env (runStages (wrapStages (frontStages cfg))) (runContext env req)
    (openingTrace env req) with ⟨⟨err | outcome, s₁⟩, tr₁⟩
  · rw [hr] at hfront
    exact hfront ▸ hearly
  · rw [hr] at hfront
    cases outcome with
    | continue_ =>
      obtain ⟨new, hnew, hn⟩ := exec_uses (@upstreamStages_noRecord cfg) env s₁ tr₁
      intro e he
      rw [hnew] at he
      rcases List.mem_append.mp he with he | he
      · exact hearly e (hfront ▸ he)
      · exact hn e he
    | bypass => exact hfront ▸ hearly
    | shortCircuit status body headers challenge => exact hfront ▸ hearly
    | proxied status body => exact hfront ▸ hearly

/-- When the last stage is reached, the upstream has answered, and what it was called with is
what `TrustScoreStage` stored. -/
private theorem serving_continue {s' : StageContext} {tr' : Trace Call Reply}
    (h : serving cfg env req = ((.ok .continue_, s'), tr')) :
    ∃ claims score up pre mid req', tr' = pre ++ ⟨.forward req' claims score, .ok up⟩ :: mid ∧
      s'.upstreamStatus = some up.status ∧ s'.trustCtx = (scoring cfg env req).1.2.trustCtx ∧
      s'.trustCtx = some ((runContext env req).signals claims) ∧
      s'.trustScore = (scoring cfg env req).1.2.trustScore ∧ s'.trustScore = some score := by
  have hsplit : servingStages cfg = scoringStages cfg ++ [hashcashStage cfg, policyStage,
    mfaPromotionStage cfg, auditAllowStage cfg, proxyStage, boplaStripStage] := rfl
  rw [serving, hsplit] at h
  obtain ⟨s₅, tr₅, hx₅, h₅⟩ := runStages_append_continue h
  have hscored : (scoring cfg env req).1.2 = s₅ := by rw [scoring, hx₅]
  obtain ⟨claims, active, score, -, -, -, -, rfl, -⟩ := scoring_continue hx₅
  obtain ⟨_, _, _, _, -, -, hx₆, h₆⟩ := runStages_continue h₅
  obtain ⟨work, rfl, rfl, -⟩ := hashcash_continue rfl rfl hx₆
  obtain ⟨_, _, _, _, -, -, hx₇, h₇⟩ := runStages_continue h₆
  obtain ⟨d, rfl, rfl⟩ := policy_continue hx₇
  obtain ⟨_, _, _, _, -, -, hx₈, h₈⟩ := runStages_continue h₇
  obtain ⟨promotion, rfl, -, -⟩ := mfaPromotion_continue rfl rfl hx₈
  obtain ⟨tr₉, _, _, _, -, -, hx₉, h₉⟩ := runStages_continue h₈
  obtain ⟨r, calls, _, hx, -, -⟩ := @exec_auditAllow env
    { ((runContext env req).withClaims claims).withScore claims
      ((runContext env req).demoScore cfg active) score with policyDecision := some d }
    tr₉ cfg claims rfl
  rw [hx] at hx₉
  simp only [Prod.mk.injEq] at hx₉
  obtain ⟨⟨-, rfl⟩, -⟩ := hx₉
  obtain ⟨_, _, _, _, -, ⟨n₁, rfl, -⟩, hx₁₀, h₁₀⟩ := runStages_continue h₉
  obtain ⟨up, rfl, rfl⟩ := proxy_continue rfl rfl hx₁₀
  obtain ⟨_, _, _, _, ⟨n₂, rfl, -⟩, ⟨n₃, rfl, -⟩, hx₁₁, h₁₁⟩ := runStages_continue h₁₀
  obtain ⟨body, removed, rfl, ans, rfl⟩ := boplaStrip_continue rfl hx₁₁
  simp only [wrapStages, List.map_nil, runStages, exec_pure, Prod.mk.injEq, true_and] at h₁₁
  obtain ⟨rfl, rfl⟩ := h₁₁
  rw [hscored]
  exact ⟨claims, score, up, _, _, _, by simp only [List.append_assoc, List.cons_append]; rfl,
    rfl, rfl, rfl, rfl, rfl⟩

private theorem pipeline_eq (cfg : GatewayConfig) :
    PIPELINE_STAGES cfg = wrapStages (servingStages cfg ++ [recordTrustContextStage]) := rfl

/-- A run that records reached the last stage, and recorded once. -/
private theorem record_shape :
    (∀ e ∈ runTrace cfg env req, e.op.isRecord = false) ∨
    req.method ≠ "OPTIONS" ∧ ∃ s' tr' noise post status trustCtx score r,
      serving cfg env req = ((.ok .continue_, s'), tr') ∧ s'.upstreamStatus = some status ∧
      status < 400 ∧ s'.trustCtx = some trustCtx ∧ s'.trustScore = some score ∧
      runTrace cfg env req =
        (tr' ++ noise) ++ ⟨.recordAllowOutcome trustCtx score, r⟩ :: post ∧
      (∀ e ∈ (tr' ++ noise) ++ post, e.op.isRecord = false) := by
  by_cases hm : req.method = "OPTIONS"
  · have : runTrace cfg env req = [⟨.next, ()⟩] := congrArg Prod.snd (exec_use_options hm)
    exact .inl (by simp [this, Call.isRecord])
  obtain ⟨rest, hrest, hclose⟩ :=
    @guarded_closing env (runContext env req) (openingTrace env req) (PIPELINE_STAGES cfg)
  have hclose' : ∀ e ∈ rest, e.op.isRecord = false := fun e he =>
    not_record_of_closing (hclose e he)
  rw [runTrace_eq hm, hrest, pipeline_eq]
  by_cases hs : (serving cfg env req).1.1 = .ok .continue_
  · rcases hx : serving cfg env req with ⟨⟨o, s'⟩, tr'⟩
    obtain rfl : o = .ok .continue_ := by rw [hx] at hs; exact hs
    have hquiet : ∀ e ∈ tr', e.op.isRecord = false := by
      have := @serving_noRecord cfg env req
      rwa [hx] at this
    obtain ⟨_, ⟨n₀, rfl, hn₀⟩, n₁, hn₁, hn₁'⟩ :=
      @exec_runStages_last env s' tr' recordTrustContextStage
    obtain ⟨calls, hcalls, hrec⟩ := @exec_recordTrustContext env s' (tr' ++ n₀)
    have htr : (exec env (runStages (wrapStages (servingStages cfg ++ [recordTrustContextStage])))
        (runContext env req) (openingTrace env req)).2 = tr' ++ n₀ ++ calls ++ n₁ := by
      simp only [serving] at hx
      rw [exec_runStages_append, hx, ← hcalls, ← hn₁]
    have hn : ∀ e ∈ n₀ ++ n₁ ++ rest, e.op.isRecord = false := by
      intro e he
      rcases List.mem_append.mp he with he | he
      · rcases List.mem_append.mp he with he | he
        · exact not_record_of_noise (hn₀ e he)
        · exact not_record_of_noise (hn₁' e he)
      · exact hclose' e he
    rw [htr]
    rcases hrec with rfl | ⟨status, trustCtx, score, r, hst, hlt, htc, hsc, rfl⟩
    · refine .inl fun e he => ?_
      simp only [List.append_nil, List.append_assoc, List.mem_append] at he hn
      rcases he with he | he
      · exact hquiet e he
      · exact hn e he
    · refine .inr ⟨hm, s', tr', n₀, n₁ ++ rest, status, trustCtx, score, r, rfl, hst, hlt, htc, hsc,
        by simp, fun e he => ?_⟩
      simp only [List.append_assoc, List.mem_append] at he hn
      rcases he with he | he
      · exact hquiet e he
      · exact hn e he
  · refine .inl fun e he => ?_
    rw [exec_runStages_stopped _ hs] at he
    rcases List.mem_append.mp he with he | he
    · exact serving_noRecord e he
    · exact hclose' e he

/-- what one event does to the telemetry tables, if `write` is what `recordAllowOutcome` does -/
def Event.telemetry {τ : Type} (write : TrustContext → JsNum → Except Err Unit → τ → τ) (t : τ) :
    Event Call Reply → τ
  | ⟨.recordAllowOutcome ctx score, r⟩ => write ctx score r t
  | _ => t

private theorem telemetry_unchanged {τ : Type}
    (write : TrustContext → JsNum → Except Err Unit → τ → τ) (t : τ) {tr : Trace Call Reply}
    (h : ∀ e ∈ tr, e.op.isRecord = false) : tr.foldl (Event.telemetry write) t = t := by
  induction tr with
  | nil => rfl
  | cons e tr ih =>
    have he : Event.telemetry write t e = t := by
      have := h e (by simp)
      rcases e with ⟨op, r⟩
      cases op <;> first | rfl | simp [Call.isRecord] at this
    rw [List.foldl_cons, he]
    exact ih fun e he => h e (by simp [he])

/-- Reputation is written at most once in a run, after the upstream answered below 400 to a
request that was allowed and whose ALLOW row is in the log, and with the context and score the
run was forwarded under. Every other run leaves the telemetry tables as they were. -/
theorem record_only_after_allow (cfg : GatewayConfig) (env : Env Call Reply) (req : Request) :
    (∀ (pre post : Trace Call Reply) trustCtx score r,
      runTrace cfg env req = pre ++ ⟨.recordAllowOutcome trustCtx score, r⟩ :: post →
      (∀ e ∈ pre ++ post, e.op.isRecord = false) ∧
      (scoring cfg env req).1.2.trustCtx = some trustCtx ∧
      (scoring cfg env req).1.2.trustScore = some score ∧
      ∃ pre' mid req' claims up, pre = pre' ++ ⟨.forward req' claims score, .ok up⟩ :: mid ∧
        up.status < 400 ∧ trustCtx = (runContext env req).signals claims ∧
        (∃ r d, ⟨.evaluate r, .ok d⟩ ∈ pre' ∧
          (d.decision = .allow ∨ d.decision = .challenge ∧ ∃ e ∈ pre', Promotes e)) ∧
        ∃ row, AllowRow env req claims score row ∧ ⟨.auditInsert row, .ok ()⟩ ∈ pre') ∧
    (req.method = "OPTIONS" ∨ (serving cfg env req).1.1 ≠ .ok .continue_ ∨
        (∀ status, (serving cfg env req).1.2.upstreamStatus = some status → 400 ≤ status) →
      ∀ (τ : Type) (write : TrustContext → JsNum → Except Err Unit → τ → τ) (t : τ),
        (runTrace cfg env req).foldl (Event.telemetry write) t = t) := by
  refine ⟨?_, ?_⟩
  · intro pre post trustCtx score r h
    rcases @record_shape cfg env req with hnone | ⟨-, s', tr', noise, post', status, trustCtx',
      score', r', hserv, hst, hlt, htc, hsc, htr, hquiet⟩
    · have := hnone ⟨.recordAllowOutcome trustCtx score, r⟩ (by rw [h]; simp)
      simp [Call.isRecord] at this
    have hall := htr
    rw [h] at htr
    obtain ⟨rfl, he, rfl⟩ := Trace.cut_unique (fun e he => hquiet e (List.mem_append_left _ he))
      (fun e he => hquiet e (List.mem_append_right _ he)) (by rfl) htr.symm
    simp only [Event.mk.injEq, Call.recordAllowOutcome.injEq] at he
    obtain ⟨⟨rfl, rfl⟩, -⟩ := he
    obtain ⟨claims, score, up, pre', mid, req', rfl, hup, htc', htc'', hsc', hsc''⟩ :=
      serving_continue hserv
    obtain rfl : score' = score := by rw [hsc] at hsc''; exact Option.some.inj hsc''
    obtain rfl : status = up.status := by rw [hst] at hup; exact Option.some.inj hup
    refine ⟨hquiet, htc' ▸ htc, hsc' ▸ hsc, pre', mid ++ noise, req', claims, up, by simp, hlt,
      Option.some.inj (htc.symm.trans htc''), ?_⟩
    have hcut : runTrace cfg env req = pre' ++ ⟨.forward req' claims score', .ok up⟩ ::
        (mid ++ noise ++ ⟨.recordAllowOutcome trustCtx' score', r'⟩ :: post') := by
      rw [hall]; simp
    obtain ⟨g, fails, hat, rfl, rfl, rfl⟩ := forwarded_at hcut
    have hgate : ∀ e ∈ g.calls cfg (runContext env req), e ∈ pre' := fun e he =>
      (Trace.mem_only.mp (hat.pre_gate ▸ he)).1
    have hasked : (⟨.evaluate (g.context cfg (runContext env req)).req, .ok g.decision⟩ :
        Event Call Reply) ∈ g.calls cfg (runContext env req) := by simp [GateAnswers.calls]
    refine ⟨⟨_, g.decision, hgate _ hasked, ?_⟩, g.row cfg (runContext env req), row_allowRow g, ?_⟩
    · rcases hat.opens.promotion with ⟨hallow, -⟩ | ⟨hchallenge, token, minted, -, hp⟩
      · exact .inl hallow
      · have hmem : ∀ e ∈ g.promotion, e ∈ pre' := fun e he =>
          hgate e (List.mem_append_right _ he)
        rw [hp] at hmem
        exact .inr ⟨hchallenge, _, hmem _ (List.mem_singleton.mpr rfl), token, _, _, _, _, minted,
          rfl⟩
    · have : (⟨.auditInsert (g.row cfg (runContext env req)), .ok ()⟩ : Event Call Reply) ∈
          Trace.only Call.material pre' := by rw [hat.pre]; simp
      exact (Trace.mem_only.mp this).1
  · intro hother τ write t
    rcases @record_shape cfg env req with hnone | ⟨hm, s', tr', noise, post', status, trustCtx',
      score', r', hserv, hst, hlt, -⟩
    · exact telemetry_unchanged write t hnone
    · rcases hother with h | h | h
      · exact absurd h hm
      · simp [hserv] at h
      · have := h status (by rw [hserv]; exact hst)
        omega

/-- the same world with an upstream that does not know the path -/
def notFoundEnv : Env Call Reply := fun tr op =>
  match op with
  | .forward .. => .ok ⟨404, .null⟩
  | op => sampleEnv tr op

theorem record_only_after_allow_sample :
    (∃ (pre post : Trace Call Reply) (trustCtx : TrustContext) (score : JsNum)
      (r : Except Err Unit), runTrace sampleConfig sampleEnv sampleRequest =
        pre ++ ⟨.recordAllowOutcome trustCtx score, r⟩ :: post ∧
      (scoring sampleConfig sampleEnv sampleRequest).1.2.trustScore = some score) ∧
    (runTrace sampleConfig notFoundEnv sampleRequest).foldl
      (Event.telemetry fun _ _ _ n => n + 1) 0 = 0 := by
  refine ⟨?_, ?_⟩
  · have h : (runTrace sampleConfig sampleEnv sampleRequest).any (·.op.isRecord) = true := by
      decide +kernel
    obtain ⟨⟨op, r⟩, he, hf⟩ := List.any_eq_true.mp h
    obtain ⟨pre, post, hcut⟩ := List.append_of_mem he
    cases op <;> simp only [Call.isRecord, Bool.false_eq_true] at hf
    exact ⟨pre, post, _, _, r, hcut,
      ((record_only_after_allow sampleConfig sampleEnv sampleRequest).1 _ _ _ _ _ hcut).2.2.1⟩
  · have h : (serving sampleConfig notFoundEnv sampleRequest).1.2.upstreamStatus = some 404 := by
      decide +kernel
    refine (record_only_after_allow sampleConfig notFoundEnv sampleRequest).2 (.inr (.inr ?_)) ℕ _ 0
    intro status hs
    rw [h] at hs
    simp only [Option.some.injEq] at hs
    omega

end ZTG
