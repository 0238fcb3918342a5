import ZtGateway.Sanity.Run

/-! What comes before a call of `ProxyService.forward`: the gate was opened by the
very claims and score that are forwarded, and the ALLOW row is in the log. -/

namespace ZTG

open Act

variable {cfg : GatewayConfig} {env : Env Call Reply} {req : Request}

private theorem gate_not_forward {op : Call} (h : op.gate = true) : op.isForward = false := by
  cases op <;> simp_all [Call.gate, Call.isForward]

private theorem gate_not_attempt {op : Call} (h : op.gate = true) : op.allowAttempt = false := by
  cases op <;> simp_all [Call.gate, Call.allowAttempt]

private theorem gate_material {op : Call} (h : op.gate = true) : op.material = true := by
  cases op <;> simp_all [Call.gate, Call.material]

private theorem isForward_material {op : Call} (h : op.isForward = true) : op.material = true := by
  cases op <;> simp_all [Call.isForward, Call.material]

private theorem allowAttempt_material {op : Call} (h : op.allowAttempt = true) :
    op.material = true := by
  cases op <;> simp_all [Call.allowAttempt, Call.material]

private theorem not_sensitive {op : Call} (h : op.sensitive = false) :
    op.isForward = false ∧ op.allowAttempt = false := by
  cases op <;> simp_all [Call.sensitive, Call.isForward, Call.allowAttempt]

private theorem row_attempt (g : GateAnswers) (ctx : StageContext) :
    (Call.auditInsert (g.row cfg ctx)).allowAttempt = true := rfl

private theorem mem_failedInserts {row : AuditEntry} {fails : List Err} {e : Event Call Reply}
    (h : e ∈ failedInserts row fails) : ∃ err, e = ⟨.auditInsert row, .error err⟩ := by
  obtain ⟨err, -, rfl⟩ := List.mem_map.mp h
  exact ⟨err, rfl⟩

/-- What a run that forwards looks like around the call. -/
structure ForwardedAt (cfg : GatewayConfig) (env : Env Call Reply) (req : Request) (g : GateAnswers)
    (fails : List Err) (pre post : Trace Call Reply) : Prop where
  method : req.method ≠ "OPTIONS"
  gate : gateOutcome cfg env req = .ok .continue_
  opens : g.Opens cfg (runContext env req)
  retries : fails.length < cfg.audit.walMaxRetries
  pre : pre.only Call.material = g.calls cfg (runContext env req) ++
    failedInserts (g.row cfg (runContext env req)) fails ++
      [⟨.auditInsert (g.row cfg (runContext env req)), .ok ()⟩]
  post : ∀ e ∈ post, e.op.late = true

private theorem not_mem_of_only {f : Call → Bool}
    (hf : ∀ {op : Call}, f op = true → op.material = true) {tr : Trace Call Reply}
    (h : ∀ e ∈ tr.only Call.material, f e.op = false) : ∀ e ∈ tr, f e.op = false := by
  intro e he
  by_contra hfe
  have hfe : f e.op = true := by simpa using hfe
  simp [h e (Trace.mem_only.mpr ⟨he, hf hfe⟩)] at hfe

private theorem calls_no_forward {g : GateAnswers} {ctx : StageContext} (hg : g.Opens cfg ctx)
    (fails : List Err) :
    ∀ e ∈ g.calls cfg ctx ++ failedInserts (g.row cfg ctx) fails, e.op.isForward = false := by
  intro e he
  rcases List.mem_append.mp he with he | he
  · exact gate_not_forward (hg.calls_gate e he)
  · obtain ⟨err, rfl⟩ := mem_failedInserts he
    rfl

/-- A run without the forwarded shape has no call of `forward`. -/
private theorem shape_of_forward {e : Event Call Reply} (he : e ∈ runTrace cfg env req)
    (hf : e.op.isForward = true) :
    ∃ g fails pre post ans, ForwardedAt cfg env req g fails pre post ∧ runTrace cfg env req =
      pre ++ ⟨.forward (g.context cfg (runContext env req)).req g.claims g.score, ans⟩ :: post := by
  have hshape := run_shape cfg env req
  generalize runTrace cfg env req = tr at he hshape
  cases hshape with
  | options h => simp at he; simp [he, Call.isForward] at hf
  | stopped front rest hfront hrest =>
    rcases List.mem_append.mp he with he | he
    · simp [(not_sensitive (hfront e he)).1] at hf
    · simp [(Call.late_rejects (hrest e he)).2.1] at hf
  | exhausted g fails ts tr hg hfails htr =>
    have : ∀ e ∈ tr, e.op.isForward = false := by
      apply not_mem_of_only isForward_material
      intro e he
      rw [htr] at he
      rcases List.mem_append.mp he with he | he
      · exact calls_no_forward hg fails e he
      · simp only [List.mem_cons, List.not_mem_nil, or_false] at he
        rcases he with rfl | rfl <;> rfl
    simp [this e he] at hf
  | forwarded g fails pre post ans hm hgate hg hfails hpre hpost =>
    exact ⟨g, fails, pre, post, ans, ⟨hm, hgate, hg, hfails, hpre, hpost⟩, rfl⟩

theorem ForwardedAt.pre_no_forward {g : GateAnswers} {fails : List Err}
    {pre post : Trace Call Reply} (h : ForwardedAt cfg env req g fails pre post) :
    ∀ e ∈ pre, e.op.isForward = false := by
  apply not_mem_of_only isForward_material
  intro e he
  rw [h.pre] at he
  rcases List.mem_append.mp he with he | he
  · exact calls_no_forward h.opens fails e he
  · simp only [List.mem_singleton] at he
    rw [he]
    rfl

/-- The one call of `forward` is the one the run's shape names. -/
theorem forwarded_at {pre post : Trace Call Reply} {req' : Request} {claims : UserClaims}
    {score : JsNum} {ans : Except Err Upstream}
    (h : runTrace cfg env req = pre ++ ⟨.forward req' claims score, ans⟩ :: post) :
    ∃ g fails, ForwardedAt cfg env req g fails pre post ∧
      req' = (g.context cfg (runContext env req)).req ∧ claims = g.claims ∧ score = g.score := by
  obtain ⟨g, fails, pre', post', ans', hat, heq⟩ :=
    shape_of_forward (show ⟨.forward req' claims score, ans⟩ ∈ runTrace cfg env req by
      rw [h]; simp) rfl
  rw [heq] at h
  obtain ⟨rfl, he, rfl⟩ := Trace.cut_unique hat.pre_no_forward
    (fun e he => (Call.late_rejects (hat.post e he)).2.1) rfl h
  simp only [Event.mk.injEq, Call.forward.injEq] at he
  obtain ⟨⟨rfl, rfl, rfl⟩, -⟩ := he
  exact ⟨g, fails, hat, rfl, rfl, rfl⟩

theorem ForwardedAt.pre_gate {g : GateAnswers} {fails : List Err}
    {pre post : Trace Call Reply} (h : ForwardedAt cfg env req g fails pre post) :
    pre.only Call.gate = g.calls cfg (runContext env req) := by
  have hfails : Trace.only Call.gate (failedInserts (g.row cfg (runContext env req)) fails) = [] :=
    Trace.only_eq_nil fun e he => by obtain ⟨err, rfl⟩ := mem_failedInserts he; rfl
  rw [← Trace.only_only fun _ => gate_material, h.pre, Trace.only_append, Trace.only_append, hfails,
    Trace.only_eq_self h.opens.calls_gate]
  simp [Call.gate]

private theorem decision_unique {g : GateAnswers} {ctx : StageContext} (hg : g.Opens cfg ctx)
    {r : Request} {d : PolicyDecision} (h : ⟨.evaluate r, .ok d⟩ ∈ g.calls cfg ctx) :
    d = g.decision := by
  simp only [GateAnswers.calls, List.mem_append, List.mem_cons, List.not_mem_nil, or_false] at h
  rcases h with ((((h | h | h) | h) | h) | h) | h
  · simp at h
  · simp at h
  · simp at h
  · cases hd : ctx.demoScore cfg g.demoActive <;> simp [hd, scoreCalls] at h
  · have hw := hg.work
    unfold WorkCalls at hw
    split_ifs at hw
    · simp [hw] at h
    · obtain ⟨_, _, _, -, -, hw⟩ := hw
      simp [hw] at h
  · simp only [Event.mk.injEq, Call.evaluate.injEq] at h
    obtain ⟨rfl, h⟩ := h
    simpa using h
  · rcases hg.promotion with ⟨-, hp⟩ | ⟨-, _, _, -, hp⟩ <;> simp [hp] at h

/-- a token that promotes a CHALLENGE -/
def Promotes (e : Event Call Reply) : Prop :=
  ∃ token userId deviceId ip ja4h minted,
    e = ⟨.validateMfaToken token userId deviceId ip ja4h, .ok (.ok minted)⟩

/-- No request reaches `forward` unless the gate was opened for exactly the claims and
the score it forwards; every other end of the ten stages before it keeps it shut. -/
theorem forward_authorised (cfg : GatewayConfig) (env : Env Call Reply) (req : Request) :
    (∀ (pre post : Trace Call Reply) req' claims score ans,
      runTrace cfg env req = pre ++ ⟨.forward req' claims score, ans⟩ :: post →
      req.method ≠ "OPTIONS" ∧ ∃ g : GateAnswers, g.Opens cfg (runContext env req) ∧
        g.claims = claims ∧ g.score = score ∧
        pre.only Call.gate = g.calls cfg (runContext env req) ∧ post.only Call.gate = []) ∧
    (gateOutcome cfg env req ≠ .ok .continue_ →
      ∀ e ∈ runTrace cfg env req, e.op.isForward = false) ∧
    (∀ r d, ⟨.evaluate r, .ok d⟩ ∈ runTrace cfg env req →
      d.decision = .deny ∨ d.decision = .challenge ∧ (∀ e ∈ runTrace cfg env req, ¬ Promotes e) →
      ∀ e ∈ runTrace cfg env req, e.op.isForward = false) := by
  refine ⟨?_, ?_, ?_⟩
  · intro pre post req' claims score ans h
    obtain ⟨g, fails, hat, rfl, rfl, rfl⟩ := forwarded_at h
    exact ⟨hat.method, g, hat.opens, rfl, rfl, hat.pre_gate,
      Trace.only_eq_nil fun e he => (Call.late_rejects (hat.post e he)).1⟩
  · intro hgate e he
    by_contra hf
    obtain ⟨g, fails, pre, post, ans, hat, -⟩ := shape_of_forward he (by simpa using hf)
    exact hgate hat.gate
  · intro r d hd hdec e he
    by_contra hf
    obtain ⟨g, fails, pre, post, ans, hat, htr⟩ := shape_of_forward he (by simpa using hf)
    -- the run asked the evaluator once, so `d` is the decision that opened the gate
    have hmem : (⟨.evaluate r, .ok d⟩ : Event Call Reply) ∈ g.calls cfg (runContext env req) := by
      rw [← hat.pre_gate, Trace.mem_only]
      rw [htr, List.mem_append, List.mem_cons] at hd
      rcases hd with hd | hd | hd
      · exact ⟨hd, rfl⟩
      · simp at hd
      · simpa [Call.gate] using (Call.late_rejects (hat.post _ hd)).1
    obtain rfl := decision_unique hat.opens hmem
    rcases hat.opens.promotion with ⟨hallow, -⟩ | ⟨hchallenge, token, minted, -, hp⟩
    · rcases hdec with hdec | ⟨hdec, -⟩ <;> simp [hallow] at hdec
    · rcases hdec with hdec | ⟨-, hno⟩
      · simp [hchallenge] at hdec
      · have hin : ∀ e ∈ g.promotion, e ∈ runTrace cfg env req := by
          intro e he
          have : e ∈ pre.only Call.gate := hat.pre_gate ▸ List.mem_append_right _ he
          rw [htr]
          exact List.mem_append_left _ (Trace.mem_only.mp this).1
        rw [hp] at hin
        exact hno _ (hin _ (List.mem_singleton.mpr rfl)) ⟨token, _, _, _, _, minted, rfl⟩

/-- a service world that lets everything through and logs at the first attempt -/
def openEnv (claims : UserClaims) (score : JsNum) (d : PolicyDecision) : Env Call Reply :=
  fun _ op =>
  match op with
  | .now => (0 : ℕ)
  | .randomUUID => "00000000-0000-4000-8000-000000000000"
  | .authenticate _ => .ok (.ok claims)
  | .isRevoked _ => .ok false
  | .demoModeActive => false
  | .evaluateScore _ => .ok score
  | .issueChallenge .. => .error (.error "")
  | .verifySolution .. => .ok (.ok (.num 0))
  | .evaluate _ => .ok d
  | .validateMfaToken .. => .ok (.fail .unknownJti)
  | .createChallenge .. => .ok (.fail .internal)
  | .auditInsert _ => .ok ()
  | .forward .. => .ok ⟨200, .null⟩
  | .strip .. => .ok .null
  | .recordAllowOutcome .. => .ok ()
  | .timer _ => false
  | .sleep _ | .emit .. | .metric _ | .log _ | .next | .respond .. => ()

def sampleConfig : GatewayConfig where
  audit := { walBaseDelayMs := 50, walMaxRetries := 3 }
  triggerThreshold := some (.num 1)
  platform := { numToString := fun _ => "", toNumber := fun _ => .nan,
                toISOString := fun _ => .ok "" }

def sampleClaims : UserClaims :=
  { userId := "alice", roles := ["user"], jti := "j", exp := 10, deviceId := "d" }

def sampleRequest : Request := { method := "GET", originalUrl := some "/users/1" }

def sampleEnv : Env Call Reply := openEnv sampleClaims (.num 0) ⟨.allow, "ok", .num 0, none⟩

private theorem sample_forwards :
    ∃ (pre post : Trace Call Reply) (req' : Request) (claims : UserClaims) (score : JsNum)
      (ans : Except Err Upstream),
      runTrace sampleConfig sampleEnv sampleRequest =
        pre ++ ⟨.forward req' claims score, ans⟩ :: post := by
  have h : (runTrace sampleConfig sampleEnv sampleRequest).any (·.op.isForward) = true := by
    decide +kernel
  obtain ⟨⟨op, ans⟩, he, hf⟩ := List.any_eq_true.mp h
  obtain ⟨pre, post, hcut⟩ := List.append_of_mem he
  cases op <;> simp only [Call.isForward, Bool.false_eq_true] at hf
  exact ⟨pre, post, _, _, _, _, hcut⟩

theorem forward_authorised_sample :
    ∃ (g : GateAnswers) (pre post : Trace Call Reply) (req' : Request) (ans : Except Err Upstream),
      runTrace sampleConfig sampleEnv sampleRequest =
        pre ++ ⟨.forward req' g.claims g.score, ans⟩ :: post ∧
      g.Opens sampleConfig (runContext sampleEnv sampleRequest) := by
  obtain ⟨pre, post, req', claims, score, ans, h⟩ := sample_forwards
  obtain ⟨-, g, hg, rfl, rfl, -⟩ :=
    (forward_authorised sampleConfig sampleEnv sampleRequest).1 _ _ _ _ _ _ h
  exact ⟨g, pre, post, req', ans, h, hg⟩

private theorem calls_no_attempt {g : GateAnswers} {ctx : StageContext} (hg : g.Opens cfg ctx) :
    Trace.only Call.allowAttempt (g.calls cfg ctx) = [] :=
  Trace.only_eq_nil fun e he => gate_not_attempt (hg.calls_gate e he)

private theorem failedInserts_attempts (g : GateAnswers) (ctx : StageContext) (fails : List Err) :
    Trace.only Call.allowAttempt (failedInserts (g.row cfg ctx) fails) =
      failedInserts (g.row cfg ctx) fails :=
  Trace.only_eq_self fun e he => by
    obtain ⟨err, rfl⟩ := mem_failedInserts he; exact row_attempt g ctx

/-- the row that must be in the log before a request is forwarded -/
structure AllowRow (env : Env Call Reply) (req : Request) (claims : UserClaims) (score : JsNum)
    (row : AuditEntry) : Prop where
  decision : row.decision = .allow
  userId : row.userId = claims.userId
  resource : row.resource = beforeQuery req.rawUrl
  action : row.action = req.method
  trustScore : row.trustScore = some score
  requestId : row.requestId = some (runContext env req).requestId

theorem row_allowRow (g : GateAnswers) :
    AllowRow env req g.claims g.score (g.row cfg (runContext env req)) where
  decision := rfl
  userId := rfl
  resource := runContext_reqPath
  action := by
    show (runContext env req).req.method = req.method
    rw [runContext_req]
  trustScore := rfl
  requestId := rfl

private theorem exhausted_run {ctx : StageContext} {g : GateAnswers} {fails : List Err} {ts : ℕ}
    {tr : Trace Call Reply} (hg : g.Opens cfg ctx) (hfails : fails.length = cfg.audit.walMaxRetries)
    (htr : tr.only Call.material = g.calls cfg ctx ++ failedInserts (g.row cfg ctx) fails ++
      [⟨.emit .auditSignal (some (auditSignalPayload (g.context cfg ctx) ts)), ()⟩,
        ⟨auditUnavailable ctx.requestId, ()⟩]) :
    (tr.only Call.allowAttempt).length = cfg.audit.walMaxRetries ∧
      (∀ e ∈ tr, e.op.isForward = false) ∧
      (tr.only Call.isAuditSignal).length = 1 ∧
      tr.only Call.answersClient = [⟨auditUnavailable ctx.requestId, ()⟩] := by
  have hquiet : ∀ f : Call → Bool, (∀ op : Call, f op = true → op.material = true) →
      (∀ op : Call, op.gate = true → f op = false) → (∀ row, f (.auditInsert row) = false) →
      tr.only f = Trace.only f
        [⟨.emit .auditSignal (some (auditSignalPayload (g.context cfg ctx) ts)), ()⟩,
        ⟨auditUnavailable ctx.requestId, ()⟩] := by
    intro f hf hgate hins
    rw [← Trace.only_only hf, htr, Trace.only_append, Trace.only_append,
      Trace.only_eq_nil fun e he => hgate _ (hg.calls_gate e he), @Trace.only_eq_nil _ _ f,
      List.nil_append, List.nil_append]
    intro e he
    obtain ⟨err, rfl⟩ := mem_failedInserts he
    exact hins _
  refine ⟨?_, ?_, ?_, ?_⟩
  · rw [← Trace.only_only fun _ => allowAttempt_material, htr, Trace.only_append, Trace.only_append,
      calls_no_attempt hg, failedInserts_attempts]
    simpa [failedInserts, Call.allowAttempt, auditUnavailable] using hfails
  · have h := hquiet Call.isForward (fun _ => isForward_material)
        (fun _ => gate_not_forward) fun _ => rfl
    intro e he
    by_contra hf
    have : e ∈ tr.only Call.isForward := Trace.mem_only.mpr ⟨he, by simpa using hf⟩
    simp [h, Call.isForward, auditUnavailable] at this
  · rw [hquiet Call.isAuditSignal (by rintro ⟨⟩ <;> simp [Call.isAuditSignal, Call.material])
      (by rintro ⟨⟩ <;> simp [Call.isAuditSignal, Call.gate]) fun _ => rfl]
    rfl
  · rw [hquiet Call.answersClient (by rintro ⟨⟩ <;> simp [Call.answersClient, Call.material])
      (by rintro ⟨⟩ <;> simp [Call.answersClient, Call.gate]) fun _ => rfl]
    rfl

/-- The ALLOW row is written, once, before the request is forwarded; when every
attempt at it fails there were `walMaxRetries` of them, nothing is forwarded, and
the client gets the 503. -/
theorem audit_before_allow (cfg : GatewayConfig) (env : Env Call Reply) (req : Request) :
    (∀ (pre post : Trace Call Reply) req' claims score ans,
      runTrace cfg env req = pre ++ ⟨.forward req' claims score, ans⟩ :: post →
      ∃ row fails, AllowRow env req claims score row ∧
        pre.only Call.allowAttempt = failedInserts row fails ++ [⟨.auditInsert row, .ok ()⟩] ∧
        post.only Call.allowAttempt = []) ∧
    ((∃ e ∈ runTrace cfg env req, e.op.allowAttempt = true) →
      (∀ row, ⟨.auditInsert row, .ok ()⟩ ∈ runTrace cfg env req →
        (Call.auditInsert row).allowAttempt = false) →
      ((runTrace cfg env req).only Call.allowAttempt).length = cfg.audit.walMaxRetries ∧
      (∀ e ∈ runTrace cfg env req, e.op.isForward = false) ∧
      ((runTrace cfg env req).only Call.isAuditSignal).length = 1 ∧
      (runTrace cfg env req).only Call.answersClient =
        [⟨auditUnavailable (runContext env req).requestId, ()⟩]) := by
  refine ⟨?_, ?_⟩
  · intro pre post req' claims score ans h
    obtain ⟨g, fails, hat, rfl, rfl, rfl⟩ := forwarded_at h
    refine ⟨g.row cfg (runContext env req), fails, row_allowRow g, ?_,
      Trace.only_eq_nil fun e he => (Call.late_rejects (hat.post e he)).2.2⟩
    rw [← Trace.only_only fun _ => allowAttempt_material, hat.pre, Trace.only_append,
      Trace.only_append, calls_no_attempt hat.opens, failedInserts_attempts]
    rfl
  · rintro ⟨e, he, hatt⟩ hnone
    have hshape := run_shape cfg env req
    generalize runTrace cfg env req = tr at he hnone hshape
    cases hshape with
    | options h => simp at he; simp [he, Call.allowAttempt] at hatt
    | stopped front rest hfront hrest =>
      rcases List.mem_append.mp he with he | he
      · simp [(not_sensitive (hfront e he)).2] at hatt
      · simp [(Call.late_rejects (hrest e he)).2.2] at hatt
    | exhausted g fails ts tr hg hfails htr => exact exhausted_run hg hfails htr
    | forwarded g fails pre post ans hm hgate hg hfails hpre hpost =>
      have hmem : (⟨.auditInsert (g.row cfg (runContext env req)), .ok ()⟩ : Event Call Reply) ∈
          pre.only Call.material := by rw [hpre]; simp
      have := hnone _ (List.mem_append_left _ (Trace.mem_only.mp hmem).1)
      simp [row_attempt] at this

/-- the same world with an audit table that is down -/
def auditDownEnv : Env Call Reply := fun tr op =>
  match op with
  | .auditInsert _ => .error (.error "connection refused")
  | op => sampleEnv tr op

/-- an audit insert that succeeded -/
def Event.inserted : Event Call Reply → Bool
  | ⟨.auditInsert _, .ok _⟩ => true
  | _ => false

theorem audit_before_allow_sample :
    (∃ row fails claims score, AllowRow sampleEnv sampleRequest claims score row ∧
      (runTrace sampleConfig sampleEnv sampleRequest).only Call.allowAttempt =
        failedInserts row fails ++ [⟨.auditInsert row, .ok ()⟩]) ∧
    (runTrace sampleConfig auditDownEnv sampleRequest).only Call.answersClient =
      [⟨auditUnavailable (runContext auditDownEnv sampleRequest).requestId, ()⟩] := by
  refine ⟨?_, ?_⟩
  · obtain ⟨pre, post, req', claims, score, ans, h⟩ := sample_forwards
    obtain ⟨row, fails, hrow, hpre, hpost⟩ :=
      (audit_before_allow sampleConfig sampleEnv sampleRequest).1 _ _ _ _ _ _ h
    refine ⟨row, fails, claims, score, hrow, ?_⟩
    rw [h, Trace.only_append, Trace.only_cons, hpre, hpost]
    simp [Call.allowAttempt]
  · have hatt : (runTrace sampleConfig auditDownEnv sampleRequest).any
        (·.op.allowAttempt) = true := by
      decide +kernel
    have hnone : (runTrace sampleConfig auditDownEnv sampleRequest).all (!·.inserted) = true := by
      decide +kernel
    refine ((audit_before_allow sampleConfig auditDownEnv sampleRequest).2
      (by simpa using hatt) fun row hrow => ?_).2.2.2
    simpa [Event.inserted] using List.all_eq_true.mp hnone _ hrow

end ZTG
