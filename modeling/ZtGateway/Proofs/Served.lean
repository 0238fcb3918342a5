import ZtGateway.Proofs.Reputation
import ZtGateway.Proofs.Upstream

/-! What the client of a served request gets. The telemetry write comes before the response, and
nothing between the two catches its error. -/

namespace ZTG

open Act

variable {cfg : GatewayConfig} {env : Env Call Reply} {req r : Request} {claims : UserClaims}
  {score : JsNum} {up : Upstream} {pre post tr : Trace Call Reply} {s : StageContext}

/-- the calls of the stages after `ProxyStage` -/
def Call.serves : Call → Bool
  | .strip .. => true
  | op => op.isRecord

theorem Call.not_serves_of_noise {op : Call} (h : op.material = false) : op.serves = false := by
  cases op <;> simp_all [Call.material, Call.serves, Call.isRecord]

theorem Call.not_serves_of_closing {op : Call} (h : op.closing = true) : op.serves = false := by
  cases op <;> simp_all [Call.closing, Call.material, Call.serves, Call.isRecord]

theorem AddsNoise.serves {tr' : Trace Call Reply} (h : AddsNoise tr tr') :
    tr'.only Call.serves = tr.only Call.serves := by
  obtain ⟨new, rfl, hnew⟩ := h
  rw [Trace.only_append, Trace.only_eq_nil fun x hx => Call.not_serves_of_noise (hnew x hx),
    List.append_nil]

/-- How the stages after `ProxyStage` end, with the calls they made. -/
inductive Served (up : Upstream) (score : JsNum) :
    Trace Call Reply → Except Err StageOutcome → Prop
  | unstripped (d p roles e) : Served up score [⟨.strip d p roles, .error e⟩] (.error e)
  | skipped (d p roles body) (hstatus : 400 ≤ up.status) :
      Served up score [⟨.strip d p roles, .ok body⟩] (.ok (.proxied up.status (some body)))
  | notNumber (d p roles body) (hstatus : up.status < 400) (hscore : score = .nan) :
      Served up score [⟨.strip d p roles, .ok body⟩]
        (.error (.error "finalScore must be a finite number"))
  | recorded (d p roles body trustCtx) (hstatus : up.status < 400) (hscore : score ≠ .nan) :
      Served up score [⟨.strip d p roles, .ok body⟩, ⟨.recordAllowOutcome trustCtx score, .ok ()⟩]
        (.ok (.proxied up.status (some body)))
  | rejected (d p roles body trustCtx e) (hstatus : up.status < 400) (hscore : score ≠ .nan) :
      Served up score
        [⟨.strip d p roles, .ok body⟩, ⟨.recordAllowOutcome trustCtx score, .error e⟩] (.error e)

theorem Served.strips {calls : Trace Call Reply} {result : Except Err StageOutcome}
    (h : Served up score calls result) :
    ∃ d p roles ans, ⟨.strip d p roles, ans⟩ ∈ calls := by
  cases h <;> exact ⟨_, _, _, _, List.mem_cons_self⟩

/-- The last stage, after the body was stripped. -/
theorem exec_record {trustCtx : TrustContext} {body : Json} (hscore : s.trustScore = some score)
    (hctx : s.trustCtx = some trustCtx) (hup : s.upstreamStatus = some up.status)
    (hbody : s.strippedBody = some body) (d : Option Json) (p : String) (roles : List String) :
    ∃ calls : Trace Call Reply, Served up score (⟨.strip d p roles, .ok body⟩ :: calls)
        (exec env recordTrustContextStage.run s tr).1.1 ∧
      (exec env recordTrustContextStage.run s tr).2 = tr ++ calls ∧
      calls.only Call.serves = calls := by
  simp only [recordTrustContextStage]
  rw [exec_bind, exec_get]
  simp only [hup]
  split_ifs with hlt
  · simp only [hctx, hscore]
    rw [exec_bind, recordTrustContextAfterAllow]
    split_ifs with hnan
    · exact ⟨[], .notNumber d p roles body hlt hnan, by simp, rfl⟩
    · rw [exec_call]
      cases env tr (.recordAllowOutcome trustCtx score) with
      | error e => exact ⟨_, .rejected d p roles body trustCtx e hlt hnan, rfl, rfl⟩
      | ok u => exact ⟨_, hbody ▸ .recorded d p roles body trustCtx hlt hnan, rfl, rfl⟩
  · exact ⟨[], hbody ▸ .skipped d p roles body (not_lt.mp hlt), by simp, rfl⟩

theorem exec_strip (hclaims : s.claims = some claims) :
    (∃ e, exec env boplaStripStage.run s tr =
      ((.error e, s), tr ++ [⟨.strip s.upstreamBody s.reqPath claims.roles, .error e⟩])) ∨
    ∃ body s', exec env boplaStripStage.run s tr = ((.ok .continue_, s'),
        tr ++ [⟨.strip s.upstreamBody s.reqPath claims.roles, .ok body⟩]) ∧
      s'.trustScore = s.trustScore ∧ s'.trustCtx = s.trustCtx ∧
      s'.upstreamStatus = s.upstreamStatus ∧ s'.strippedBody = some body := by
  simp only [boplaStripStage]
  rw [exec_bind, exec_get]
  simp only [hclaims]
  rw [exec_bind, exec_call]
  cases env tr (.strip s.upstreamBody s.reqPath claims.roles) with
  | error e => exact .inl ⟨e, rfl⟩
  | ok body => exact .inr ⟨body, _, rfl, rfl, rfl, rfl, rfl⟩

/-- The stages after `ProxyStage`, from a context that was scored. -/
theorem exec_served {trustCtx : TrustContext} (hclaims : s.claims = some claims)
    (hscore : s.trustScore = some score) (hctx : s.trustCtx = some trustCtx) :
    let x := exec env (runStages (wrapStages [boplaStripStage, recordTrustContextStage]))
      (s.withUpstream up) tr
    ∃ calls, x.2.only Call.serves = tr.only Call.serves ++ calls ∧ Served up score calls x.1.1 := by
  intro x
  obtain ⟨tr₀, tr₁, h₀, h₁, hcons⟩ :=
    @exec_runStages_cons env (s.withUpstream up) tr boplaStripStage
  have hx : x = _ := hcons [recordTrustContextStage]
  have hclaims' : (s.withUpstream up).claims = some claims := hclaims
  rcases @exec_strip env claims tr₀ _ hclaims' with
    ⟨e, hstrip⟩ | ⟨body, s', hstrip, hscore', hctx', hup, hbody⟩
  · rw [hstrip] at h₁ hx
    refine ⟨[⟨.strip (some up.data) s.reqPath claims.roles, .error e⟩], ?_, ?_⟩
    · rw [hx]
      exact h₁.serves.trans (by rw [Trace.only_append, h₀.serves]; rfl)
    · rw [hx]
      exact .unstripped _ _ _ e
  · rw [hstrip] at h₁ hx
    obtain ⟨tr₂, tr₃, h₂, h₃, hlast⟩ := @exec_runStages_cons env s' tr₁ recordTrustContextStage
    obtain ⟨calls, hserved, htrace, honly⟩ := @exec_record env score up tr₂ s' trustCtx body
      (hscore'.trans hscore) (hctx'.trans hctx) hup hbody (some up.data) s.reqPath claims.roles
    have hx' : x = _ := hx.trans (hlast [])
    have hresult : x.1.1 = (exec env recordTrustContextStage.run s' tr₂).1.1 ∧ x.2 = tr₃ := by
      rw [hx']
      rcases (exec env recordTrustContextStage.run s' tr₂).1 with ⟨e | outcome, s''⟩
      · exact ⟨rfl, rfl⟩
      · cases outcome <;> exact ⟨rfl, rfl⟩
    refine ⟨⟨.strip (some up.data) s.reqPath claims.roles, .ok body⟩ :: calls, ?_, ?_⟩
    · rw [hresult.2, h₃.serves, htrace, Trace.only_append, honly, h₂.serves, h₁.serves,
        Trace.only_append, h₀.serves, List.append_assoc]
      rfl
    · rw [hresult.1]
      exact hserved

/-- A request that `forward` answered: the stages end as the two after `ProxyStage` do, and their
calls are those after it. -/
theorem served_run
    (h : runTrace cfg env req = pre ++ ⟨.forward r claims score, .ok up⟩ :: post) :
    req.method ≠ "OPTIONS" ∧ Served up score (post.only Call.serves)
      (exec env (runStages (PIPELINE_STAGES cfg)) (runContext env req)
        (openingTrace env req)).1.1 := by
  obtain ⟨g, tr₁, hm, -, -, rfl, rfl, hnoise, hstages⟩ := forwarded_run h
  obtain ⟨calls, hcalls, hserved⟩ := @exec_served env g.claims g.score up tr₁
    (g.context cfg (runContext env req)) ((runContext env req).signals g.claims) rfl rfl rfl
  obtain ⟨rest, hrest, hclose⟩ :=
    @guarded_closing env (runContext env req) (openingTrace env req) (PIPELINE_STAGES cfg)
  have hafter : (exec env (runStages (PIPELINE_STAGES cfg)) (runContext env req)
      (openingTrace env req)).2.only Call.serves =
        Trace.only Call.serves (pre ++ [⟨.forward r g.claims g.score, .ok up⟩]) ++ calls := by
    rw [hstages, ← hnoise.serves]
    exact hcalls
  have hall := congrArg (Trace.only Call.serves) h
  rw [runTrace_eq hm, hrest, Trace.only_append, hafter,
    Trace.only_eq_nil fun x hx => Call.not_serves_of_closing (hclose x hx), List.append_nil,
    Trace.only_append, Trace.only_append, Trace.only_cons] at hall
  have hpost : calls = post.only Call.serves := by simpa [Call.serves, Call.isRecord] using hall
  rw [hstages, ← hpost]
  exact ⟨hm, hserved⟩

/-- the telemetry write was rejected -/
def TelemetryRejected (score : JsNum) (post : Trace Call Reply) : Prop :=
  score = .nan ∨ ∃ trustCtx s e, ⟨.recordAllowOutcome trustCtx s, .error e⟩ ∈ post

/-- The stages end with the upstream's response: the client gets it. -/
theorem clientResponses_of_proxied (timestamp : String) (hm : req.method ≠ "OPTIONS") {status : ℕ}
    {body : Option Json} (h : (exec env (runStages (PIPELINE_STAGES cfg)) (runContext env req)
      (openingTrace env req)).1.1 = .ok (.proxied status body)) :
    (Prog.exec env [] (GatewayMiddleware.use cfg req)).1 = .ok () ∧
      clientResponses timestamp (Prog.exec env [] (GatewayMiddleware.use cfg req)) =
        [(status, body)] := by
  obtain ⟨hresult, hclient, hquiet⟩ := clientResponses_finish timestamp hm
    (Prod.ext (Prod.ext h rfl) rfl)
  refine ⟨hresult, ?_⟩
  rw [hclient]
  simp only [finish, writeOutcome, exec_tryCatch, exec_bind, exec_tell, Trace.only_append, hquiet]
  rfl

/-- The stages end with an error: the middleware rethrows it or answers with at least 400. -/
theorem not_served_of_error (timestamp : String) (hm : req.method ≠ "OPTIONS") {e : Err}
    (h : (exec env (runStages (PIPELINE_STAGES cfg)) (runContext env req)
      (openingTrace env req)).1.1 = .error e) {status : ℕ} (hlt : status < 400)
    (body : Option Json) :
    ¬ ((Prog.exec env [] (GatewayMiddleware.use cfg req)).1 = .ok () ∧
      clientResponses timestamp (Prog.exec env [] (GatewayMiddleware.use cfg req)) =
        [(status, body)]) := by
  obtain ⟨hresult, hclient, hquiet⟩ := clientResponses_finish timestamp hm
    (Prod.ext (Prod.ext h rfl) rfl)
  rintro ⟨hok, hanswer⟩
  rw [hclient] at hanswer
  rw [hresult] at hok
  have hstatus := congrArg (List.map Prod.fst) hanswer
  -- the three errors that the terminal handler answers, with a status of its own
  have hwrong : ∀ n : ℕ, 400 ≤ n → [n] ≠ [status] := by
    rintro n hn hsame
    obtain rfl := List.singleton_inj.mp hsame
    omega
  cases e with
  | auditExhausted m =>
    simp only [finish, handleTerminalError, exec_bind, exec_get, exec_tell, exec_call,
      Trace.only_append, hquiet] at hstatus
    exact hwrong 503 (by decide) hstatus
  | serviceUnavailable m =>
    simp only [finish, handleTerminalError, exec_bind, exec_get, exec_tell, Trace.only_append,
      hquiet] at hstatus
    exact hwrong 502 (by decide) hstatus
  | unauthorized m =>
    simp only [finish, handleTerminalError, exec_bind, exec_get, exec_tell, Trace.only_append,
      hquiet] at hstatus
    exact hwrong 401 (by decide) hstatus
  | http status m => cases hok
  | error m => cases hok

/-- A request that `forward` answered and whose body was stripped is served, with the upstream's
status and that body, exactly when no telemetry write was due or the write did not fail. -/
theorem served_iff_recorded (cfg : GatewayConfig) (env : Env Call Reply) (req r : Request)
    (claims : UserClaims) (score : JsNum) (up : Upstream) (pre post : Trace Call Reply)
    (d : Option Json) (p : String) (roles : List String) (body : Json) (timestamp : String)
    (hrun : runTrace cfg env req = pre ++ ⟨.forward r claims score, .ok up⟩ :: post)
    (hstrip : ⟨.strip d p roles, .ok body⟩ ∈ post) :
    let run := Prog.exec env [] (GatewayMiddleware.use cfg req)
    run.1 = .ok () ∧ clientResponses timestamp run = [(up.status, some body)] ↔
      400 ≤ up.status ∨ ¬ TelemetryRejected score post := by
  obtain ⟨hm, hserved⟩ := served_run hrun
  have hstripped := Trace.mem_only.mpr (⟨hstrip, rfl⟩ : _ ∧ Call.serves (.strip d p roles) = true)
  have hrejected : (∃ trustCtx s e, ⟨.recordAllowOutcome trustCtx s, .error e⟩ ∈ post) ↔
      ∃ trustCtx s e, (⟨.recordAllowOutcome trustCtx s, .error e⟩ : Event Call Reply) ∈
        post.only Call.serves :=
    exists₃_congr fun _ _ _ => (Trace.mem_only.trans (and_iff_left rfl)).symm
  unfold TelemetryRejected
  rw [hrejected]
  generalize post.only Call.serves = calls at hserved hstripped
  generalize hend : (exec env (runStages (PIPELINE_STAGES cfg)) (runContext env req)
    (openingTrace env req)).1.1 = result at hserved
  cases hserved with
  | unstripped d' p' roles' e =>
    cases List.mem_singleton.mp hstripped
  | skipped d' p' roles' body' hstatus =>
    cases List.mem_singleton.mp hstripped
    exact iff_of_true (clientResponses_of_proxied timestamp hm hend) (.inl hstatus)
  | notNumber d' p' roles' body' hlt hnan =>
    refine iff_of_false (not_served_of_error timestamp hm hend hlt _) ?_
    rintro (hstatus | hwritten)
    · omega
    · exact hwritten (.inl hnan)
  | recorded d' p' roles' body' trustCtx hlt hscore =>
    rcases List.mem_cons.mp hstripped with h | h
    · cases h
      refine iff_of_true (clientResponses_of_proxied timestamp hm hend) (.inr ?_)
      rintro (hnan | ⟨trustCtx', s', e, hmem⟩)
      · exact hscore hnan
      · rcases List.mem_cons.mp hmem with h | h
        · cases h
        · cases List.mem_singleton.mp h
    · cases List.mem_singleton.mp h
  | rejected d' p' roles' body' trustCtx e hlt hscore =>
    refine iff_of_false (not_served_of_error timestamp hm hend hlt _) ?_
    rintro (hstatus | hwritten)
    · omega
    · exact hwritten (.inr ⟨trustCtx, score, e, by simp⟩)

/-! The same request with the two outcomes of the write. -/

/-- `sampleEnv`, but the telemetry write answers `r` -/
def telemetryEnv (r : Except Err Unit) : Env Call Reply := fun tr op =>
  match op with
  | .recordAllowOutcome .. => r
  | op => sampleEnv tr op

def Call.forwardedScore : Call → Option JsNum
  | .forward _ _ score => some score
  | _ => none

private theorem telemetry_served (r : Except Err Unit)
    (h : (runTrace sampleConfig (telemetryEnv r) sampleRequest).filterMap (·.op.forwardedScore) =
      [.num 0]) :
    ∃ (pre post : Trace Call Reply) (req : Request) (claims : UserClaims) (d : Option Json)
      (p : String) (roles : List String),
      runTrace sampleConfig (telemetryEnv r) sampleRequest =
        pre ++ ⟨.forward req claims (.num 0), .ok ⟨200, .null⟩⟩ :: post ∧
      ⟨.strip d p roles, .ok .null⟩ ∈ post := by
  have hanswered := runTrace_answered sampleConfig (telemetryEnv r) sampleRequest
  have hfirst : JsNum.num 0 ∈
      (runTrace sampleConfig (telemetryEnv r) sampleRequest).filterMap (·.op.forwardedScore) := by
    rw [h]
    simp
  obtain ⟨⟨op, ans⟩, he, hf⟩ := List.mem_filterMap.mp hfirst
  obtain ⟨pre, post, hcut⟩ := List.append_of_mem he
  cases op <;> simp only [Call.forwardedScore, Option.some.injEq, reduceCtorEq] at hf
  subst hf
  obtain rfl : ans = .ok ⟨200, .null⟩ := hanswered _ _ _ hcut
  obtain ⟨d, p, roles, ans, hstrip⟩ := (served_run hcut).2.strips
  have hpost := (Trace.mem_only.mp hstrip).1
  obtain ⟨before, after, hat⟩ := List.append_of_mem hpost
  obtain rfl : ans = .ok .null :=
    hanswered (pre ++ ⟨.forward _ _ (.num 0), .ok ⟨200, .null⟩⟩ :: before)
      ⟨.strip d p roles, ans⟩ after (by rw [hcut, hat, List.append_assoc, List.cons_append])
  exact ⟨pre, post, _, _, d, p, roles, hcut, hpost⟩

/-- A write that succeeds. -/
theorem served_iff_recorded_written :
    (Prog.exec (telemetryEnv (.ok ())) [] (GatewayMiddleware.use sampleConfig sampleRequest)).1 =
        .ok () ∧
      clientResponses "" (Prog.exec (telemetryEnv (.ok ())) []
        (GatewayMiddleware.use sampleConfig sampleRequest)) = [(200, some .null)] := by
  obtain ⟨pre, post, req, claims, d, p, roles, hrun, hstrip⟩ :=
    telemetry_served (.ok ()) (by decide +kernel)
  refine (served_iff_recorded sampleConfig (telemetryEnv (.ok ())) sampleRequest req claims (.num 0)
    ⟨200, .null⟩ pre post d p roles .null "" hrun hstrip).mpr (.inr ?_)
  rintro (hnan | ⟨trustCtx, s, e, hmem⟩)
  · cases hnan
  · obtain ⟨before, after, hat⟩ := List.append_of_mem hmem
    have hans := runTrace_answered sampleConfig (telemetryEnv (.ok ())) sampleRequest
      (pre ++ ⟨.forward req claims (.num 0), .ok ⟨200, .null⟩⟩ :: before) _ after
      (by rw [hrun, hat, List.append_assoc, List.cons_append])
    cases hans

/-- A write that fails: the upstream has answered 200, and the client gets a 500. -/
theorem served_rejected :
    ∃ (pre post : Trace Call Reply) (req : Request) (claims : UserClaims) (d : Option Json)
      (p : String) (roles : List String),
      runTrace sampleConfig (telemetryEnv (.error (.error "SQLITE_BUSY"))) sampleRequest =
        pre ++ ⟨.forward req claims (.num 0), .ok ⟨200, .null⟩⟩ :: post ∧
      ⟨.strip d p roles, .ok .null⟩ ∈ post ∧
      (clientResponses "" (Prog.exec (telemetryEnv (.error (.error "SQLITE_BUSY"))) []
        (GatewayMiddleware.use sampleConfig sampleRequest))).map Prod.fst = [500] := by
  obtain ⟨pre, post, req, claims, d, p, roles, hrun, hstrip⟩ :=
    telemetry_served (.error (.error "SQLITE_BUSY")) (by decide +kernel)
  exact ⟨pre, post, req, claims, d, p, roles, hrun, hstrip, by decide +kernel⟩

end ZTG
