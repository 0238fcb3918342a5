import ZtGateway.Sanity.Gate

/-! The shapes one run of the middleware can have: stopped before the ALLOW row,
out of audit retries, or forwarded. -/

namespace ZTG

open Act

/-- the calls that authorise -/
def Call.gate : Call → Bool
  | .authenticate _ | .isRevoked _ | .demoModeActive | .evaluateScore _ | .verifySolution ..
  | .evaluate _ | .validateMfaToken .. => true
  | _ => false

/-- what may come after the gate: the response, the event bus and what the last stages call -/
def Call.late : Call → Bool
  | .strip .. | .recordAllowOutcome .. | .respond .. | .next | .emit .. => true
  | op => !op.material

/-- what follows the stages: the response and the event bus -/
def Call.closing : Call → Bool
  | .respond .. | .next | .emit .. => true
  | op => !op.material

theorem Call.closing_of_noise {op : Call} (h : op.material = false) : op.closing = true := by
  cases op <;> simp_all [Call.material, Call.closing]

theorem Call.late_of_closing {op : Call} (h : op.closing = true) : op.late = true := by
  cases op <;> simp_all [Call.material, Call.closing, Call.late]

theorem Call.late_of_noise {op : Call} (h : op.material = false) : op.late = true := by
  cases op <;> simp_all [Call.material, Call.late]

theorem Call.late_rejects {op : Call} (h : op.late = true) :
    op.gate = false ∧ op.isForward = false ∧ op.allowAttempt = false := by
  cases op <;> simp_all [Call.material, Call.late, Call.gate, Call.isForward, Call.allowAttempt]

theorem GateAnswers.Opens.calls_gate {g : GateAnswers} {cfg : GatewayConfig} {ctx : StageContext}
    (h : g.Opens cfg ctx) : ∀ e ∈ g.calls cfg ctx, e.op.gate = true := by
  intro e he
  have hscore : ∀ e ∈ scoreCalls (ctx.signals g.claims) (ctx.demoScore cfg g.demoActive) g.score,
      e.op.gate = true := by
    cases ctx.demoScore cfg g.demoActive <;> simp [scoreCalls, Call.gate]
  have hwork : ∀ e ∈ g.work, e.op.gate = true := by
    have := h.work
    unfold WorkCalls at this
    split_ifs at this
    · simp [this]
    · obtain ⟨_, _, _, -, -, hw⟩ := this
      simp [hw, Call.gate]
  have hpromo : ∀ e ∈ g.promotion, e.op.gate = true := by
    rcases h.promotion with ⟨-, hp⟩ | ⟨-, _, _, -, hp⟩
    · simp [hp]
    · simp [hp, Call.gate]
  simp only [GateAnswers.calls, List.mem_append, List.mem_cons, List.not_mem_nil, or_false] at he
  rcases he with ((((rfl | rfl | rfl) | he) | he) | rfl) | he
  · rfl
  · rfl
  · rfl
  · exact hscore e he
  · exact hwork e he
  · rfl
  · exact hpromo e he

variable {env : Env Call Reply} {s : StageContext} {tr : Trace Call Reply} {cfg : GatewayConfig}
  {req : Request}

/-- the context this run starts with -/
def runContext (env : Env Call Reply) (req : Request) : StageContext :=
  (Prog.exec env [] (buildStageContext req)).1

/-- the calls before the first stage -/
def openingTrace (env : Env Call Reply) (req : Request) : Trace Call Reply :=
  (Prog.exec env [] (buildStageContext req)).2 ++
    [⟨.log (.opening (runContext env req).requestId req.method (runContext env req).reqPath
      (extractIp req)), ()⟩]

theorem opening_noise : AddsNoise [] (openingTrace env req) := by
  unfold openingTrace buildStageContext
  cases req.header "x-request-id" with
  | some id => exact .snoc (.snoc (.refl []) rfl) rfl
  | none => exact .snoc (.snoc (.snoc (.refl []) rfl) rfl) rfl

@[simp] theorem runContext_req : (runContext env req).req = req := by
  unfold runContext buildStageContext
  cases req.header "x-request-id" <;> rfl

@[simp] theorem runContext_reqPath : (runContext env req).reqPath = beforeQuery req.rawUrl := by
  unfold runContext buildStageContext
  cases req.header "x-request-id" <;> rfl

@[simp] theorem runContext_ja4h : (runContext env req).ja4h = req.ja4h := by
  unfold runContext buildStageContext
  cases req.header "x-request-id" <;> rfl

theorem runTrace_answered (cfg : GatewayConfig) (env : Env Call Reply) (req : Request) :
    (runTrace cfg env req).Answered env :=
  Prog.exec_answered (by intro pre e post h; simp at h) _

/-- How the ten stages before the proxy end in this run. -/
def gateOutcome (cfg : GatewayConfig) (env : Env Call Reply) (req : Request) :
    Except Err StageOutcome :=
  (exec env (runStages (wrapStages (gateStages cfg))) (runContext env req)
    (openingTrace env req)).1.1

/-- the stages up to and including `TrustScoreStage`, in this run -/
def scoring (cfg : GatewayConfig) (env : Env Call Reply) (req : Request) :
    (Except Err StageOutcome × StageContext) × Trace Call Reply :=
  exec env (runStages (wrapStages (scoringStages cfg))) (runContext env req) (openingTrace env req)

/-- A preflight is handed on at once. -/
theorem exec_over_options (stages : List PipelineStage) (h : req.method = "OPTIONS") :
    Prog.exec env [] (GatewayMiddleware.over stages req) = ((.ok (), req), [⟨.next, ()⟩]) := by
  rw [GatewayMiddleware.over, if_pos h]
  rfl

theorem exec_use_options (h : req.method = "OPTIONS") :
    Prog.exec env [] (GatewayMiddleware.use cfg req) = (.ok (), [⟨.next, ()⟩]) := by
  rw [GatewayMiddleware.use, GatewayMiddleware.handle, Prog.exec_bind, exec_over_options _ h]
  rfl

theorem exec_over (stages : List PipelineStage) (h : req.method ≠ "OPTIONS") :
    Prog.exec env [] (GatewayMiddleware.over stages req) =
      (((exec env (guarded stages) (runContext env req) (openingTrace env req)).1.1,
        (exec env (guarded stages) (runContext env req) (openingTrace env req)).1.2.req),
        (exec env (guarded stages) (runContext env req) (openingTrace env req)).2) := by
  simp only [GatewayMiddleware.over, if_neg h, Prog.exec_bind, Prog.exec_call, Prog.exec_ret, exec,
    openingTrace, runContext]

/-- A run is the stages under their guard, after the opening calls. -/
theorem exec_use (h : req.method ≠ "OPTIONS") :
    Prog.exec env [] (GatewayMiddleware.use cfg req) =
      ((exec env (guarded (PIPELINE_STAGES cfg)) (runContext env req) (openingTrace env req)).1.1,
        (exec env (guarded (PIPELINE_STAGES cfg)) (runContext env req)
          (openingTrace env req)).2) := by
  rw [GatewayMiddleware.use, GatewayMiddleware.handle, Prog.exec_bind, exec_over _ h]
  rfl

theorem runTrace_eq (h : req.method ≠ "OPTIONS") :
    runTrace cfg env req =
      (exec env (guarded (PIPELINE_STAGES cfg)) (runContext env req) (openingTrace env req)).2 := by
  rw [runTrace, exec_use h]

/-- what follows the stages: the outcome is written, or the error handled -/
def finish : Except Err StageOutcome → GwM Unit
  | .ok outcome => tryCatch (writeOutcome outcome) handleTerminalError
  | .error e => handleTerminalError e

private theorem handleTerminalError_closing (e : Err) :
    (handleTerminalError e).Uses fun op => op.closing = true := by
  have ht : ∀ {op : Call}, op.closing = true →
      (tell op : GwM Unit).Uses fun op => op.closing = true := fun h _ => ⟨h, fun _ => trivial⟩
  refine .bind .get fun ctx => ?_
  cases e with
  | auditExhausted m =>
    exact .bind (ht rfl) fun _ => .bind (fun _ => ⟨rfl, fun _ => trivial⟩) fun _ =>
      .bind (ht rfl) fun _ => ht rfl
  | serviceUnavailable m => exact ht rfl
  | unauthorized m => exact ht rfl
  | http status m => exact .throw _
  | error m => exact .throw _

private theorem writeOutcome_closing (o : StageOutcome) :
    (writeOutcome o).Uses fun op => op.closing = true := by
  have ht : ∀ {op : Call}, op.closing = true →
      (tell op : GwM Unit).Uses fun op => op.closing = true := fun h _ => ⟨h, fun _ => trivial⟩
  cases o with
  | continue_ => exact .throw _
  | bypass => exact ht rfl
  | shortCircuit status body headers challenge => exact ht rfl
  | proxied status body => exact .bind (ht rfl) fun _ => ht rfl

theorem finish_closing (r : Except Err StageOutcome) :
    (finish r).Uses fun op => op.closing = true := by
  cases r with
  | error e => exact handleTerminalError_closing e
  | ok outcome => exact .tryCatch (writeOutcome_closing outcome) handleTerminalError_closing

/-- The `finally` block does not change how the run ends. -/
theorem guarded_finish (stages : List PipelineStage) :
    let x := exec env (runStages stages) s tr
    let y := exec env (finish x.1.1) x.1.2 x.2
    (exec env (guarded stages) s tr).1.1 = y.1.1 ∧
      AddsNoise y.2 (exec env (guarded stages) s tr).2 := by
  unfold guarded
  simp only [exec_bind, exec_tryCatch]
  generalize exec env (runStages stages) s tr = x
  rcases x with ⟨⟨e | outcome, s₁⟩, tr₁⟩
  · simp only [finish]
    generalize exec env (handleTerminalError e) s₁ tr₁ = y
    rcases y with ⟨⟨e' | _, s₂⟩, tr₂⟩ <;> exact ⟨rfl, .snoc (.snoc (.refl _) rfl) rfl⟩
  · simp only [finish, exec_tryCatch]
    generalize exec env (writeOutcome outcome) s₁ tr₁ = y
    rcases y with ⟨⟨e' | _, s₂⟩, tr₂⟩
    · simp only []
      generalize exec env (handleTerminalError e') s₂ tr₂ = z
      rcases z with ⟨⟨e'' | _, s₃⟩, tr₃⟩ <;> exact ⟨rfl, .snoc (.snoc (.refl _) rfl) rfl⟩
    · exact ⟨rfl, .snoc (.snoc (.refl _) rfl) rfl⟩

/-- the row of `AuditAllowStage` once the gate was opened by `g` -/
def GateAnswers.row (g : GateAnswers) (cfg : GatewayConfig) (ctx : StageContext) : AuditEntry :=
  auditRow (g.context cfg ctx) g.claims .allow

def auditUnavailable (requestId : String) : Call :=
  .respond 503 [("Retry-After", "5")]
    (some (.obj [("error", .str "audit_unavailable"), ("requestId", .str requestId)]))

/-- The runs of the middleware, by how far they got. -/
inductive RunShape (cfg : GatewayConfig) (env : Env Call Reply) (req : Request)
    (ctx : StageContext) : Trace Call Reply → Prop
  | options (h : req.method = "OPTIONS") : RunShape cfg env req ctx [⟨.next, ()⟩]
  | stopped (front rest : Trace Call Reply) (hfront : ∀ e ∈ front, e.op.sensitive = false)
      (hrest : ∀ e ∈ rest, e.op.late = true) : RunShape cfg env req ctx (front ++ rest)
  | exhausted (g : GateAnswers) (fails : List Err) (ts : ℕ) (tr : Trace Call Reply)
      (hg : g.Opens cfg ctx) (hfails : fails.length = cfg.audit.walMaxRetries)
      (htr : tr.only Call.material = g.calls cfg ctx ++ failedInserts (g.row cfg ctx) fails ++
        [⟨.emit .auditSignal (some (auditSignalPayload (g.context cfg ctx) ts)), ()⟩,
          ⟨auditUnavailable ctx.requestId, ()⟩]) : RunShape cfg env req ctx tr
  | forwarded (g : GateAnswers) (fails : List Err) (pre post : Trace Call Reply)
      (ans : Except Err Upstream) (hmethod : req.method ≠ "OPTIONS")
      (hgate : gateOutcome cfg env req = .ok .continue_) (hg : g.Opens cfg ctx)
      (hfails : fails.length < cfg.audit.walMaxRetries)
      (hpre : pre.only Call.material = g.calls cfg ctx ++ failedInserts (g.row cfg ctx) fails ++
        [⟨.auditInsert (g.row cfg ctx), .ok ()⟩])
      (hpost : ∀ e ∈ post, e.op.late = true) :
      RunShape cfg env req ctx
        (pre ++ ⟨.forward (g.context cfg ctx).req g.claims g.score, ans⟩ :: post)

/-- After the stages, only the answer to the client follows. -/
theorem guarded_closing (stages : List PipelineStage) :
    ∃ rest, (exec env (guarded stages) s tr).2 = (exec env (runStages stages) s tr).2 ++ rest ∧
      ∀ e ∈ rest, e.op.closing = true := by
  obtain ⟨-, noise, hnoise, hn⟩ := @guarded_finish env s tr stages
  obtain ⟨rest, hrest, hr⟩ := exec_uses (finish_closing (exec env (runStages stages) s tr).1.1) env
    (exec env (runStages stages) s tr).1.2 (exec env (runStages stages) s tr).2
  refine ⟨rest ++ noise, by rw [hnoise, hrest, List.append_assoc], fun e he => ?_⟩
  rcases List.mem_append.mp he with he | he
  · exact hr e he
  · exact Call.closing_of_noise (hn e he)

/-- An exhausted audit write ends in one signal and one 503. -/
theorem guarded_exhausted {stages : List PipelineStage} {m : String} {s₁ : StageContext}
    {tr₁ : Trace Call Reply}
    (h : exec env (runStages stages) s tr = ((.error (.auditExhausted m), s₁), tr₁)) :
    ∃ ts, (exec env (guarded stages) s tr).2.only Call.material = tr₁.only Call.material ++
      [⟨.emit .auditSignal (some (auditSignalPayload s₁ ts)), ()⟩,
        ⟨auditUnavailable s₁.requestId, ()⟩] := by
  obtain ⟨-, hn⟩ := @guarded_finish env s tr stages
  rw [h] at hn
  refine ⟨env (tr₁ ++ [⟨.metric .incrementAuditFailure, ()⟩]) .now, ?_⟩
  rw [hn.only]
  simp only [finish, handleTerminalError, exec_bind, exec_get, exec_tell, exec_call]
  simp [Call.material, auditUnavailable]

/-- the context after `ProxyStage` -/
def StageContext.withUpstream (s : StageContext) (up : Upstream) : StageContext :=
  { s with upstreamStatus := some up.status, upstreamBody := some up.data }

/-- How the stages end once `forward` has answered: with its error, or as the two stages after
`ProxyStage` do. -/
def afterForward (env : Env Call Reply) (s : StageContext) (tr : Trace Call Reply) :
    Except Err Upstream → (Except Err StageOutcome × StageContext) × Trace Call Reply
  | .error e => ((.error e, s), tr)
  | .ok up =>
    exec env (runStages (wrapStages [boplaStripStage, recordTrustContextStage]))
      (s.withUpstream up) tr

theorem exec_proxyStage (g : GateAnswers) (ctx : StageContext) (tr : Trace Call Reply) :
    let op := Call.forward (g.context cfg ctx).req g.claims g.score
    ∃ tr₀, AddsNoise tr tr₀ ∧ ∃ tr₁, AddsNoise (tr₀ ++ [⟨op, env tr₀ op⟩]) tr₁ ∧
      exec env (runStages (wrapStages [proxyStage, boplaStripStage, recordTrustContextStage]))
        (g.context cfg ctx) tr = afterForward env (g.context cfg ctx) tr₁ (env tr₀ op) := by
  intro op
  obtain ⟨tr₀, tr₁, h₀, h₁, hcons⟩ := @exec_runStages_cons env (g.context cfg ctx) tr proxyStage
  have hstage : exec env proxyStage.run (g.context cfg ctx) tr₀ =
      ((match (env tr₀ op : Except Err Upstream) with
        | .error e => (.error e, g.context cfg ctx)
        | .ok up => (.ok .continue_, (g.context cfg ctx).withUpstream up)),
        tr₀ ++ [⟨op, env tr₀ op⟩]) := by
    simp only [proxyStage]
    rw [exec_bind, exec_get]
    simp only [show (g.context cfg ctx).claims = some g.claims from rfl,
      show (g.context cfg ctx).trustScore = some g.score from rfl]
    rw [exec_bind, exec_call]
    cases env tr₀ op <;> rfl
  rw [hstage] at h₁ hcons
  refine ⟨tr₀, h₀, tr₁, h₁, (hcons _).trans ?_⟩
  cases env tr₀ op <;> rfl

theorem afterForward_late (ans : Except Err Upstream) :
    ∃ new, (afterForward env s tr ans).2 = tr ++ new ∧ ∀ e ∈ new, e.op.late = true := by
  cases ans with
  | error e => exact ⟨[], (List.append_nil _).symm, by simp⟩
  | ok up =>
    refine exec_uses (runStages_uses (fun op => Call.late_of_noise) fun st hst => ?_) env _ tr
    simp only [List.mem_cons, List.not_mem_nil, or_false] at hst
    rcases hst with rfl | rfl
    · exact (boplaStrip_within fun _ _ _ => rfl).uses
    · exact (recordTrustContext_within fun _ _ => rfl).uses

/-- The last three stages: one forward, then late calls. -/
theorem exec_backStages {g : GateAnswers} {ctx : StageContext} :
    ∃ tr₀ ans rest, AddsNoise tr tr₀ ∧
      (exec env (runStages (wrapStages [proxyStage, boplaStripStage, recordTrustContextStage]))
        (g.context cfg ctx) tr).2 =
          tr₀ ++ ⟨.forward (g.context cfg ctx).req g.claims g.score, ans⟩ :: rest ∧
      ∀ e ∈ rest, e.op.late = true := by
  obtain ⟨tr₀, h₀, tr₁, ⟨noise, rfl, hn⟩, hproxy⟩ := @exec_proxyStage env cfg g ctx tr
  obtain ⟨more, hmore, hlate⟩ := afterForward_late
    (env tr₀ (.forward (g.context cfg ctx).req g.claims g.score))
  refine ⟨tr₀, env tr₀ (.forward (g.context cfg ctx).req g.claims g.score), noise ++ more, h₀, ?_,
    fun e he => ?_⟩
  · rw [hproxy, hmore, List.append_assoc, List.append_assoc]
    rfl
  · rcases List.mem_append.mp he with he | he
    · exact Call.late_of_noise (hn e he)
    · exact hlate e he

private theorem pipeline_split (cfg : GatewayConfig) :
    PIPELINE_STAGES cfg = wrapStages (frontStages cfg ++
      auditAllowStage cfg :: [proxyStage, boplaStripStage, recordTrustContextStage]) := rfl

private theorem gate_split (cfg : GatewayConfig) :
    gateStages cfg = frontStages cfg ++ [auditAllowStage cfg] := rfl

private theorem stopped_shape
    (h : (exec env (runStages (wrapStages (frontStages cfg))) (runContext env req)
      (openingTrace env req)).1.1 ≠ .ok .continue_) :
    RunShape cfg env req (runContext env req)
      (exec env (guarded (PIPELINE_STAGES cfg)) (runContext env req) (openingTrace env req)).2 := by
  obtain ⟨rest, hrest, hclose⟩ :=
    @guarded_closing env (runContext env req) (openingTrace env req) (PIPELINE_STAGES cfg)
  obtain ⟨new, hnew, hquiet⟩ :=
    exec_uses (@frontStages_quiet cfg) env (runContext env req) (openingTrace env req)
  obtain ⟨noise, hnoise, hn⟩ := @opening_noise env req
  rw [hrest, pipeline_split, exec_runStages_stopped _ h, hnew, hnoise]
  refine .stopped _ rest (fun e he => ?_) fun e he => Call.late_of_closing (hclose e he)
  rcases List.mem_append.mp he with he | he
  · exact Call.not_sensitive_of_noise (hn e he)
  · exact hquiet e he

private theorem passed_shape (hm : req.method ≠ "OPTIONS") {s₁ : StageContext}
    {tr₁ : Trace Call Reply}
    (h : exec env (runStages (wrapStages (frontStages cfg))) (runContext env req)
      (openingTrace env req) = ((.ok .continue_, s₁), tr₁)) :
    RunShape cfg env req (runContext env req)
      (exec env (guarded (PIPELINE_STAGES cfg)) (runContext env req) (openingTrace env req)).2 := by
  obtain ⟨g, hg, rfl, htr⟩ := front_continue h
  rw [opening_noise.only, Trace.only_nil, List.nil_append] at htr
  have hsplit : ∀ back, exec env (runStages (wrapStages (frontStages cfg ++ back)))
      (runContext env req) (openingTrace env req) =
        exec env (runStages (wrapStages back)) (g.context cfg (runContext env req)) tr₁ := by
    intro back
    rw [exec_runStages_append, h]
  obtain ⟨tr₂, tr₄, h₂, h₄, hcons⟩ :=
    @exec_runStages_cons env (g.context cfg (runContext env req)) tr₁ (auditAllowStage cfg)
  obtain ⟨r, calls, tr₃, hx, h₃, hr⟩ :=
    @exec_auditAllow env (g.context cfg (runContext env req)) tr₂ cfg g.claims rfl
  simp only [hx] at h₄ hcons
  rw [h₂.only, htr] at h₃
  cases hr with
  | exhausted fails hfails =>
    have herr :=
      hsplit (auditAllowStage cfg :: [proxyStage, boplaStripStage, recordTrustContextStage])
    rw [hcons, ← pipeline_split] at herr
    obtain ⟨ts, hts⟩ := guarded_exhausted herr
    refine .exhausted g fails ts _ hg hfails ?_
    rw [hts, h₄.only, h₃]
    rfl
  | written fails hfails =>
    obtain ⟨rest, hrest, hclose⟩ :=
      @guarded_closing env (runContext env req) (openingTrace env req) (PIPELINE_STAGES cfg)
    obtain ⟨pre, ans, post, h₅, hback, hpost⟩ := @exec_backStages env tr₄ cfg g (runContext env req)
    have hgate : gateOutcome cfg env req = .ok .continue_ := by
      rw [gateOutcome, gate_split, hsplit, hcons]; rfl
    rw [hrest, pipeline_split, hsplit, hcons]
    simp only [Except.map]
    rw [hback, List.append_assoc, List.cons_append]
    refine .forwarded g fails pre (post ++ rest) ans hm hgate hg hfails ?_ fun e he => ?_
    · rw [h₅.only, h₄.only, h₃, List.append_assoc]
      rfl
    · rcases List.mem_append.mp he with he | he
      · exact hpost e he
      · exact Call.late_of_closing (hclose e he)

theorem run_shape (cfg : GatewayConfig) (env : Env Call Reply) (req : Request) :
    RunShape cfg env req (runContext env req) (runTrace cfg env req) := by
  by_cases hm : req.method = "OPTIONS"
  · rw [runTrace, exec_use_options hm]
    exact .options hm
  rw [runTrace_eq hm]
  rcases hf : exec env (runStages (wrapStages (frontStages cfg))) (runContext env req)
    (openingTrace env req) with ⟨⟨e | outcome, s₁⟩, tr₁⟩
  · exact stopped_shape (by simp [hf])
  · cases outcome with
    | continue_ => exact passed_shape hm hf
    | bypass => exact stopped_shape (by simp [hf])
    | shortCircuit status body headers challenge => exact stopped_shape (by simp [hf])
    | proxied status body => exact stopped_shape (by simp [hf])

end ZTG
