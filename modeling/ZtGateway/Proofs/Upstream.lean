import ZtGateway.Spec.Client
import ZtGateway.Sanity.Proxy
import ZtGateway.Proofs.Origin
import ZtGateway.Proofs.Forward
import ZtGateway.Proofs.Exits

/-! The way of an upstream failure to the client: through the retry loop, the breaker, the
response validator and the terminal handler, which knows errors by their class. -/

namespace ZTG

open Act

/-- what one attempt got: a response, or a network error -/
abbrev AxiosOutcome := Except ProxyErr AxiosResponse

namespace AxiosOutcome

/-- The loop tries again, if it may. -/
def retriable : AxiosOutcome → Bool
  | .ok response => RETRIABLE_STATUSES.contains response.status
  | .error err => err.retriable

/-- how the loop ends when this attempt is its last -/
def verdict (maxRetries : ℕ) : AxiosOutcome → Except ProxyErr AxiosResponse
  | .ok response =>
    if RETRIABLE_STATUSES.contains response.status then
      .error (.error ("Upstream " ++ toString response.status ++ " after " ++
        toString maxRetries ++ " retries") none)
    else .ok response
  | .error err => .error err

end AxiosOutcome

def Event.outcome : Event ProxyCall ProxyReply → Option AxiosOutcome
  | ⟨.axios _, o⟩ => some o
  | _ => none

/-- what the attempts of a run of `forward` got, in order -/
def outcomes (tr : Trace ProxyCall ProxyReply) : List AxiosOutcome := tr.filterMap Event.outcome

@[simp] theorem outcomes_append (tr tr' : Trace ProxyCall ProxyReply) :
    outcomes (tr ++ tr') = outcomes tr ++ outcomes tr' := List.filterMap_append ..

/-- Every attempt that was allowed was made, and none got an answer to return. -/
def Exhausted (maxRetries : ℕ) (os : List AxiosOutcome) : Prop :=
  os.length = maxRetries + 1 ∧ ∀ o ∈ os, o.retriable = true

variable {env : Env ProxyCall ProxyReply} {tr : Trace ProxyCall ProxyReply}

/-- The loop: retriable attempts, then one that settles it. -/
theorem exec_retryLoop (maxRetries : ℕ) (config : AxiosRequestConfig) (left : ℕ) :
    ∃ front last tr', exec env (retryLoop maxRetries config left) () tr =
        ((AxiosOutcome.verdict maxRetries last, ()), tr') ∧
      outcomes tr' = outcomes tr ++ (front ++ [last]) ∧ (∀ o ∈ front, o.retriable = true) ∧
      front.length ≤ left ∧ (front.length < left → last.retriable = false) := by
  induction left generalizing tr with
  | zero =>
    refine ⟨[], env tr (.axios config), tr ++ [⟨.axios config, env tr (.axios config)⟩], ?_,
      outcomes_append _ _, by simp, le_rfl, by simp⟩
    simp only [retryLoop, exec_bind, exec_call]
    cases env tr (.axios config) with
    | error err => rfl
    | ok response =>
      dsimp only [AxiosOutcome.verdict]
      split_ifs
      · rfl
      · rfl
  | succ left ih =>
    simp only [retryLoop, exec_bind, exec_call]
    have hone := outcomes_append tr [⟨.axios config, env tr (.axios config)⟩]
    generalize htr₁ : tr ++ [⟨.axios config, env tr (.axios config)⟩] = tr₁ at hone ⊢
    have hcall : outcomes tr₁ = outcomes tr ++ [env tr (.axios config)] := hone
    generalize (env tr (.axios config) : AxiosOutcome) = o at hcall ⊢
    -- one more round of the loop after a retriable attempt
    have hagain : AxiosOutcome.retriable o = true → ∃ front last tr',
        exec env (retryLoop maxRetries config left) ()
          (tr₁ ++ [⟨.sleep (backoff (maxRetries - (left + 1))), ()⟩]) =
            ((AxiosOutcome.verdict maxRetries last, ()), tr') ∧
        outcomes tr' = outcomes tr ++ (front ++ [last]) ∧ (∀ o ∈ front, o.retriable = true) ∧
        front.length ≤ left + 1 ∧ (front.length < left + 1 → last.retriable = false) := by
      intro hretry
      obtain ⟨front, last, tr', hexec, hout, hfront, hlen, hlast⟩ :=
        @ih (tr₁ ++ [⟨.sleep (backoff (maxRetries - (left + 1))), ()⟩])
      refine ⟨o :: front, last, tr', hexec, ?_, ?_, ?_, ?_⟩
      · rw [hout, outcomes_append, hcall]
        simp [outcomes, Event.outcome]
      · intro x hx
        rcases List.mem_cons.mp hx with rfl | hx
        · exact hretry
        · exact hfront x hx
      · simpa using hlen
      · intro hlt
        exact hlast (by simpa using hlt)
    have hdone : AxiosOutcome.retriable o = false → ∃ front last tr',
        ((AxiosOutcome.verdict maxRetries o, ()), tr₁) =
            ((AxiosOutcome.verdict maxRetries last, ()), tr') ∧
        outcomes tr' = outcomes tr ++ (front ++ [last]) ∧ (∀ o ∈ front, o.retriable = true) ∧
        front.length ≤ left + 1 ∧ (front.length < left + 1 → last.retriable = false) :=
      fun hstop => ⟨[], o, tr₁, rfl, hcall, by simp, Nat.zero_le _, fun _ => hstop⟩
    cases o with
    | ok response =>
      dsimp only
      split_ifs with hretry
      · exact hagain hretry
      · have hverdict : AxiosOutcome.verdict maxRetries (.ok response) = .ok response :=
          if_neg hretry
        rw [hverdict] at hdone
        exact hdone (Bool.eq_false_iff.mpr hretry)
    | error err =>
      dsimp only
      split_ifs with hretry
      · exact hagain hretry
      · exact hdone (Bool.eq_false_iff.mpr hretry)

theorem exec_assertSafe (hostname : List Char) :
    ∃ r a, exec env (assertSafe hostname) () tr = ((r, ()), tr ++ [⟨.lookup hostname, a⟩]) := by
  simp only [assertSafe, exec_bind, exec_call]
  cases env tr (.lookup hostname) with
  | error err => exact ⟨_, _, rfl⟩
  | ok address =>
    simp only [id]
    split_ifs
    · exact ⟨_, _, rfl⟩
    · cases parseIPv4 address with
      | none => exact ⟨_, _, rfl⟩
      | some octets =>
        dsimp only
        split_ifs
        · exact ⟨_, _, rfl⟩
        · exact ⟨_, _, rfl⟩

/-- What `forward` throws in the cases of an upstream failure. -/
structure Delivered (maxRetries : ℕ) (os : List AxiosOutcome)
    (r : Except ProxyErr AxiosResponse) : Prop where
  exhausted : Exhausted maxRetries os → ∃ m code, r = .error (.error m code)
  failed : ¬ Exhausted maxRetries os → ∀ response, os.getLast? = some (.ok response) →
    500 ≤ response.status → ∃ m, r = .error (.serviceUnavailable m)

theorem retryLoop_noAdmits (maxRetries : ℕ) (config : AxiosRequestConfig) (left : ℕ) :
    (retryLoop maxRetries config left).Uses fun op => ∀ name, op ≠ .admits name := by
  have htry : (call (.axios config) .ok : ProxyM AxiosOutcome).Uses
      fun op => ∀ name, op ≠ .admits name := fun _ => ⟨by simp, fun _ => trivial⟩
  have hwait : ∀ ms, (tell (.sleep ms) : ProxyM Unit).Uses fun op => ∀ name, op ≠ .admits name :=
    fun _ _ => ⟨by simp, fun _ => trivial⟩
  induction left with
  | zero =>
    refine .bind htry fun o => ?_
    cases o with
    | error err => exact .throw _
    | ok response =>
      dsimp only
      split_ifs
      · exact .throw _
      · exact .pure _
  | succ left ih =>
    refine .bind htry fun o => ?_
    cases o with
    | error err =>
      dsimp only
      split_ifs
      · exact .bind (hwait _) fun _ => ih
      · exact .throw _
    | ok response =>
      dsimp only
      split_ifs
      · exact .bind (hwait _) fun _ => ih
      · exact .pure _

/-- Behind an open breaker nothing is tried; behind a closed one, the loop decides. -/
theorem exec_fire (p : ProxyService) (name : List Char) (config : AxiosRequestConfig) :
    ∃ admitted r tr', exec env (p.fire name config) () tr = ((r, ()), tr') ∧
      (∃ new, tr' = tr ++ ⟨.admits name, admitted⟩ :: new ∧
        ∀ e ∈ new, ∀ name, e.op ≠ .admits name) ∧
      (admitted = false → r = .error .breaker ∧ outcomes tr' = outcomes tr) ∧
      (admitted = true → ∃ front last, r = AxiosOutcome.verdict p.maxRetries last ∧
        outcomes tr' = outcomes tr ++ (front ++ [last]) ∧ (∀ o ∈ front, o.retriable = true) ∧
        front.length ≤ p.maxRetries ∧
        (front.length < p.maxRetries → last.retriable = false)) := by
  refine ⟨env tr (.admits name), ?_⟩
  simp only [ProxyService.fire, exec_bind, exec_call]
  cases env tr (.admits name) with
  | false =>
    refine ⟨_, _, rfl, ⟨[], rfl, by simp⟩, fun _ => ⟨rfl, ?_⟩, by simp⟩
    simp [outcomes, Event.outcome]
  | true =>
    obtain ⟨front, last, tr', hexec, hout, hfront, hlen, hlast⟩ :=
      @exec_retryLoop env (tr ++ [⟨.admits name, true⟩]) p.maxRetries config p.maxRetries
    obtain ⟨new, hnew, hothers⟩ := exec_uses (retryLoop_noAdmits p.maxRetries config p.maxRetries)
      env () (tr ++ [⟨.admits name, true⟩])
    rw [hexec] at hnew
    simp only [if_true, executeWithRetry, hexec]
    refine ⟨_, _, rfl, ⟨new, ?_, hothers⟩, by simp,
      fun _ => ⟨front, last, rfl, ?_, hfront, hlen, hlast⟩⟩
    · rw [show tr' = _ from hnew]
      simp
    · rw [hout, outcomes_append]
      simp [outcomes, Event.outcome]

theorem exec_assertValid (response : AxiosResponse) :
    ∃ r, exec env (assertValidProxyResponse response) () tr = ((r, ()), tr) ∧
      ((∃ m, r = .error (.serviceUnavailable m)) ∨
        response.status < 500 ∧ (r = .ok () ∨ ∃ m, r = .error (.badGateway m))) := by
  unfold assertValidProxyResponse
  extract_lets ct
  split
  · exact ⟨_, rfl, .inl ⟨_, rfl⟩⟩
  · rename_i hfailed
    split
    · exact ⟨_, rfl, .inr ⟨not_le.mp hfailed, .inr ⟨_, rfl⟩⟩⟩
    · exact ⟨_, rfl, .inr ⟨not_le.mp hfailed, .inl rfl⟩⟩

/-- What the loop's last attempt decides, after the validator and the `catch` of `forward`. -/
theorem delivered_of_verdict {maxRetries : ℕ} {front : List AxiosOutcome} {last : AxiosOutcome}
    (hfront : ∀ o ∈ front, o.retriable = true) (hlen : front.length ≤ maxRetries)
    (hlast : front.length < maxRetries → last.retriable = false)
    {r : Except ProxyErr AxiosResponse}
    (hretry : last.retriable = true → ∃ m code, r = .error (.error m code))
    (hfail : last.retriable = false → ∀ response, last = .ok response → 500 ≤ response.status →
      ∃ m, r = .error (.serviceUnavailable m)) :
    Delivered maxRetries (front ++ [last]) r := by
  refine ⟨fun hex => hretry (hex.2 last (by simp)), fun hnot response hresponse hstatus => ?_⟩
  have hlast' : last = .ok response := by simpa using hresponse
  refine hfail (Bool.eq_false_iff.mpr fun hr => hnot ⟨?_, ?_⟩) response hlast' hstatus
  · have hfull : ¬ front.length < maxRetries := fun hlt => by simp [hlast hlt] at hr
    simp only [List.length_append, List.length_singleton]
    omega
  · intro o ho
    rcases List.mem_append.mp ho with ho | ho
    · exact hfront o ho
    · rw [List.mem_singleton.mp ho]
      exact hr

/-- the `try` and `catch` of `forward` -/
def ProxyService.deliver (p : ProxyService) (serviceName : List Char)
    (config : AxiosRequestConfig) : ProxyM AxiosResponse :=
  tryCatch
    (do
      let response ← p.fire serviceName config
      assertValidProxyResponse response
      pure response)
    fun err =>
      match err with
      | .breaker =>
        throw (.serviceUnavailable ("Circuit open for service: " ++ String.ofList serviceName))
      | err => throw err

/-- `forward` asks the breaker in its `try` only, after the guard and the certificate. -/
theorem exec_forward (p : ProxyService) (req : Request) (claims : UserClaims) (score : JsNum) :
    (∀ e ∈ (exec env (p.forward req claims score) () []).2, ∀ name, e.op ≠ .admits name) ∨
      ∃ serviceName config tr₀, exec env (p.forward req claims score) () [] =
          exec env (p.deliver serviceName config) () tr₀ ∧
        outcomes tr₀ = [] ∧ ∀ e ∈ tr₀, ∀ name, e.op ≠ .admits name := by
  unfold ProxyService.forward
  cases p.resolveTarget req.rawUrl with
  | error err => exact .inl (by simp)
  | ok found =>
    obtain ⟨service, target⟩ := found
    obtain ⟨r, a, hsafe⟩ := @exec_assertSafe env [] target.hostname
    simp only [exec_bind, hsafe]
    cases r with
    | error err => exact .inl (by simp)
    | ok u =>
      dsimp only
      split_ifs with hbreaker
      · rw [exec_bind, exec_call]
        cases env ([] ++ [⟨.lookup target.hostname, a⟩]) .getHttpsAgent with
        | error err => exact .inl (by simp)
        | ok u =>
          refine .inr ⟨service, _, _, rfl, ?_, ?_⟩
          · simp [outcomes, Event.outcome]
          · simp
      · exact .inl (by simp)

theorem deliver_delivers (p : ProxyService) (serviceName : List Char)
    (config : AxiosRequestConfig) :
    ∃ admitted r tr', exec env (p.deliver serviceName config) () tr = ((r, ()), tr') ∧
      (∃ new, tr' = tr ++ ⟨.admits serviceName, admitted⟩ :: new ∧
        ∀ e ∈ new, ∀ name, e.op ≠ .admits name) ∧
      (admitted = false → outcomes tr' = outcomes tr ∧ ∃ m, r = .error (.serviceUnavailable m)) ∧
      (admitted = true → ∃ os, outcomes tr' = outcomes tr ++ os ∧
        Delivered p.maxRetries os r) := by
  obtain ⟨admitted, r, tr', hfire, hnew, hopen, hclosed⟩ := @exec_fire env tr p serviceName config
  refine ⟨admitted, ?_⟩
  simp only [ProxyService.deliver, exec_tryCatch, exec_bind, hfire]
  cases admitted with
  | false =>
    obtain ⟨rfl, hout⟩ := hopen rfl
    exact ⟨_, tr', rfl, hnew, fun _ => ⟨hout, _, rfl⟩, by simp⟩
  | true =>
    obtain ⟨front, last, rfl, hout, hfront, hlen, hlast⟩ := hclosed rfl
    have hdone := @delivered_of_verdict p.maxRetries front last hfront hlen hlast
    cases last with
    | error err =>
      cases err with
      | error m code =>
        refine ⟨_, tr', rfl, hnew, by simp, fun _ => ⟨_, hout, hdone (fun _ => ⟨m, code, rfl⟩) ?_⟩⟩
        simp
      | _ =>
        refine ⟨_, tr', rfl, hnew, by simp, fun _ => ⟨_, hout, hdone (fun h => ?_) ?_⟩⟩
        · simp [AxiosOutcome.retriable, ProxyErr.retriable] at h
        · simp
    | ok response =>
      obtain ⟨v, hvalid, hcases⟩ := @exec_assertValid env tr' response
      by_cases hretry : AxiosOutcome.retriable (.ok response) = true
      · have hverdict : AxiosOutcome.verdict p.maxRetries (.ok response) =
            .error (.error ("Upstream " ++ toString response.status ++ " after " ++
              toString p.maxRetries ++ " retries") none) := if_pos hretry
        rw [hverdict]
        refine ⟨_, tr', rfl, hnew, by simp, fun _ => ⟨_, hout, hdone (fun _ => ⟨_, _, rfl⟩) ?_⟩⟩
        intro h
        rw [hretry] at h
        cases h
      · have hverdict : AxiosOutcome.verdict p.maxRetries (.ok response) = .ok response :=
          if_neg hretry
        simp only [hverdict, hvalid]
        rcases hcases with ⟨m, rfl⟩ | ⟨hstatus, rfl | ⟨m, rfl⟩⟩
        · exact ⟨_, tr', rfl, hnew, by simp, fun _ => ⟨_, hout,
            hdone (fun h => absurd h hretry) fun _ _ _ _ => ⟨m, rfl⟩⟩⟩
        · refine ⟨_, tr', rfl, hnew, by simp, fun _ => ⟨_, hout,
            hdone (fun h => absurd h hretry) fun _ response' hsame hle => ?_⟩⟩
          obtain rfl := Except.ok.inj hsame
          omega
        · refine ⟨_, tr', rfl, hnew, by simp, fun _ => ⟨_, hout,
            hdone (fun h => absurd h hretry) fun _ response' hsame hle => ?_⟩⟩
          obtain rfl := Except.ok.inj hsame
          omega

/-- What `forward` comes to once the breaker was asked. -/
theorem forward_delivers (p : ProxyService) (req : Request) (claims : UserClaims) (score : JsNum)
    {name : List Char} {admitted : Bool}
    (hasked : ⟨.admits name, admitted⟩ ∈ (exec env (p.forward req claims score) () []).2) :
    let x := exec env (p.forward req claims score) () []
    (admitted = false → outcomes x.2 = [] ∧ ∃ m, x.1.1 = .error (.serviceUnavailable m)) ∧
      (admitted = true → Delivered p.maxRetries (outcomes x.2) x.1.1) := by
  rcases @exec_forward env p req claims score with hnone | ⟨service, config, tr₀, heq, hout₀, hnone⟩
  · exact absurd rfl (hnone _ hasked name)
  obtain ⟨admitted', r, tr', hexec, ⟨new, rfl, hothers⟩, hopen, hclosed⟩ :=
    @deliver_delivers env tr₀ p service config
  rw [heq, hexec] at hasked ⊢
  -- the one question to the breaker
  have hsame : admitted = admitted' := by
    rcases List.mem_append.mp hasked with h | h
    · exact absurd rfl (hnone _ h name)
    · rcases List.mem_cons.mp h with h | h
      · cases h
        rfl
      · exact absurd rfl (hothers _ h name)
  rw [hout₀] at hopen hclosed
  subst hsame
  refine ⟨hopen, fun h => ?_⟩
  obtain ⟨os, hos, hdelivered⟩ := hclosed h
  rw [List.nil_append] at hos
  exact hos ▸ hdelivered

section Run

variable {cfg : GatewayConfig} {env : Env Call Reply} {req r : Request} {claims : UserClaims}
  {score : JsNum} {ans : Except Err Upstream} {pre post : Trace Call Reply}

/-- the context the last three stages start with -/
theorem gate_passed (h : gateOutcome cfg env req = .ok .continue_) :
    ∃ (g : GateAnswers) (tr : Trace Call Reply),
      exec env (runStages (wrapStages (gateStages cfg))) (runContext env req)
        (openingTrace env req) = ((.ok .continue_, g.context cfg (runContext env req)), tr) := by
  obtain ⟨s', tr', hgate⟩ : ∃ s' tr', exec env (runStages (wrapStages (gateStages cfg)))
      (runContext env req) (openingTrace env req) = ((.ok .continue_, s'), tr') :=
    ⟨_, _, Prod.ext (Prod.ext h rfl) rfl⟩
  have hsplit : gateStages cfg = frontStages cfg ++ [auditAllowStage cfg] := rfl
  rw [hsplit] at hgate ⊢
  obtain ⟨s₁, tr₁, hfront, haudit⟩ := runStages_append_continue hgate
  obtain ⟨g, -, rfl, -⟩ := front_continue hfront
  obtain ⟨tr₀, s₂, tr₂, tr₃, -, -, hstage, hrest⟩ := runStages_continue haudit
  obtain ⟨w, calls, tr₄, hexec, -, -⟩ :=
    @exec_auditAllow env (g.context cfg (runContext env req)) tr₀ cfg g.claims rfl
  rw [hexec] at hstage
  have hs₂ : s₂ = g.context cfg (runContext env req) := by
    simp only [Prod.mk.injEq] at hstage
    exact hstage.1.2.symm
  simp only [wrapStages, List.map_nil, runStages, exec_pure, Prod.mk.injEq, true_and] at hrest
  obtain ⟨rfl, rfl⟩ := hrest
  exact ⟨g, _, hs₂ ▸ hgate⟩

/-- A run that called `forward`, cut at that call. -/
theorem forwarded_run
    (h : runTrace cfg env req = pre ++ ⟨.forward r claims score, ans⟩ :: post) :
    ∃ (g : GateAnswers) (tr₁ : Trace Call Reply), req.method ≠ "OPTIONS" ∧
      ans = env pre (.forward r claims score) ∧ r = (g.context cfg (runContext env req)).req ∧
      claims = g.claims ∧ score = g.score ∧
      AddsNoise (pre ++ [⟨.forward r claims score, ans⟩]) tr₁ ∧
      exec env (runStages (PIPELINE_STAGES cfg)) (runContext env req) (openingTrace env req) =
        afterForward env (g.context cfg (runContext env req)) tr₁ ans := by
  obtain ⟨g', fails, hat, -⟩ := forwarded_at h
  obtain ⟨g, tr, hgate⟩ := gate_passed hat.gate
  obtain ⟨tr₀, -, tr₁, hnoise, hproxy⟩ := @exec_proxyStage env cfg g (runContext env req) tr
  have hstages : exec env (runStages (PIPELINE_STAGES cfg)) (runContext env req)
      (openingTrace env req) = afterForward env (g.context cfg (runContext env req)) tr₁
        (env tr₀ (.forward (g.context cfg (runContext env req)).req g.claims g.score)) := by
    refine (exec_runStages_append (gateStages cfg)
      [proxyStage, boplaStripStage, recordTrustContextStage]).trans ?_
    rw [hgate]
    exact hproxy
  -- this is where the trace has its one call of `forward`
  obtain ⟨rest, hrest, -⟩ :=
    @guarded_closing env (runContext env req) (openingTrace env req) (PIPELINE_STAGES cfg)
  obtain ⟨more, hmore, -⟩ := @afterForward_late env (g.context cfg (runContext env req)) tr₁
    (env tr₀ (.forward (g.context cfg (runContext env req)).req g.claims g.score))
  obtain ⟨noise, rfl, hn⟩ := hnoise
  rw [runTrace_eq hat.method, hrest, hstages, hmore, List.append_assoc, List.append_assoc,
    List.append_assoc] at h
  obtain ⟨rfl, he, -⟩ := Trace.cut_unique hat.pre_no_forward
    (fun e he => (Call.late_rejects (hat.post e he)).2.1) rfl h.symm
  simp only [Event.mk.injEq, Call.forward.injEq] at he
  obtain ⟨⟨rfl, rfl, rfl⟩, hans⟩ := he
  obtain rfl := eq_of_heq hans
  exact ⟨g, _, hat.method, rfl, rfl, rfl, rfl, ⟨noise, rfl, hn⟩, hstages⟩

theorem responses_only (tr : Trace Call Reply) :
    tr.filterMap Event.response = (tr.only Call.answersClient).filterMap Event.response := by
  unfold Trace.only
  rw [List.filterMap_filter]
  congr 1
  funext e
  obtain ⟨op, a⟩ := e
  cases op <;> rfl

/-- the body of the terminal handler's 502 -/
def proxyUnavailable (requestId : String) : Json :=
  .obj [("error", .str "proxy_unavailable"), ("requestId", .str requestId)]

/-- What the client gets is decided after the stages, which answer nothing. -/
theorem clientResponses_finish (timestamp : String) (hm : req.method ≠ "OPTIONS")
    {r : Except Err StageOutcome} {s : StageContext} {tr : Trace Call Reply}
    (h : exec env (runStages (PIPELINE_STAGES cfg)) (runContext env req) (openingTrace env req) =
      ((r, s), tr)) :
    let x := exec env (finish r) s tr
    (Prog.exec env [] (GatewayMiddleware.use cfg req)).1 = x.1.1 ∧
      clientResponses timestamp (Prog.exec env [] (GatewayMiddleware.use cfg req)) =
        clientResponses timestamp (x.1.1, x.2.only Call.answersClient) ∧
      tr.only Call.answersClient = [] := by
  obtain ⟨hresult, hnoise, hquiet⟩ := @run_finish cfg env req hm
  rw [h] at hresult hnoise hquiet
  refine ⟨hresult, ?_, hquiet⟩
  unfold clientResponses
  rw [responses_only (Prog.exec env [] (GatewayMiddleware.use cfg req)).2, hnoise.answersClient,
    hresult]

/-- An error of the stages that the terminal handler does not know reaches the filter. -/
theorem clientResponses_of_error (timestamp : String) (hm : req.method ≠ "OPTIONS") {m : String}
    {s : StageContext} {tr : Trace Call Reply}
    (h : exec env (runStages (PIPELINE_STAGES cfg)) (runContext env req) (openingTrace env req) =
      ((.error (.error m), s), tr)) :
    clientResponses timestamp (Prog.exec env [] (GatewayMiddleware.use cfg req)) =
      [HttpExceptionFilter.catch_ timestamp (.error m)] := by
  obtain ⟨-, hclient, hquiet⟩ := clientResponses_finish timestamp hm h
  rw [hclient, show (exec env (finish (.error (.error m))) s tr).2 = tr from rfl, hquiet]
  rfl

theorem clientResponses_of_unavailable (timestamp : String) (hm : req.method ≠ "OPTIONS")
    {m : String} {s : StageContext} {tr : Trace Call Reply}
    (h : exec env (runStages (PIPELINE_STAGES cfg)) (runContext env req) (openingTrace env req) =
      ((.error (.serviceUnavailable m), s), tr)) :
    clientResponses timestamp (Prog.exec env [] (GatewayMiddleware.use cfg req)) =
      [(502, some (proxyUnavailable s.requestId))] := by
  obtain ⟨-, hclient, hquiet⟩ := clientResponses_finish timestamp hm h
  rw [hclient]
  simp only [finish, handleTerminalError, exec_bind, exec_get, exec_tell, Trace.only_append, hquiet]
  rfl

/-- For every registry, breaker state, retry limit and sequence of attempt outcomes: when the
breaker refuses, the retries are exhausted or the last response has status 500 or more, the client
receives the 502 and nothing else exactly if the retries were not exhausted. -/
theorem upstream_failure_mapped (cfg : GatewayConfig) (env : Env Call Reply) (req : Request)
    (registry : ServiceRegistry) (maxRetries : ℕ) (platform : Platform) (parseHost : HostParser)
    (world : ServedBy (.onModuleInit registry maxRetries platform parseHost) env)
    (timestamp : String) (pre post : Trace Call Reply) (r : Request) (claims : UserClaims)
    (score : JsNum) (ans : Except Err Upstream) (name : List Char) (admitted : Bool)
    (hrun : runTrace cfg env req = pre ++ ⟨.forward r claims score, ans⟩ :: post) :
    let proxy := exec (world.network pre)
      ((ProxyService.onModuleInit registry maxRetries platform parseHost).forward r claims score)
      () []
    let os := outcomes proxy.2
    ⟨.admits name, admitted⟩ ∈ proxy.2 →
    (admitted = false ∨ Exhausted maxRetries os ∨
      ∃ response, os.getLast? = some (.ok response) ∧ 500 ≤ response.status) →
    (clientResponses timestamp (Prog.exec env [] (GatewayMiddleware.use cfg req)) =
        [(502, some (proxyUnavailable (runContext env req).requestId))] ↔
      ¬ Exhausted maxRetries os) := by
  intro proxy os hasked hcase
  obtain ⟨g, tr₁, hm, hforward, -, -, -, -, hstages⟩ := forwarded_run hrun
  have hproxy : exec (world.network pre)
      ((ProxyService.onModuleInit registry maxRetries platform parseHost).forward r claims score)
      () [] = proxy := rfl
  have hos : outcomes proxy.2 = os := rfl
  clear_value os proxy
  have hans : ans = forwardReply proxy.1.1 := by rw [hforward, world.forward, hproxy]
  have hdelivers := @forward_delivers (world.network pre) _ r claims score name admitted
    (hproxy.symm ▸ hasked)
  dsimp only at hdelivers
  rw [hproxy, hos] at hdelivers
  obtain ⟨hopen, hclosed⟩ := hdelivers
  -- an error that stays of its class up to the terminal handler
  have hunavailable : (∃ m, proxy.1.1 = .error (.serviceUnavailable m)) →
      clientResponses timestamp (Prog.exec env [] (GatewayMiddleware.use cfg req)) =
        [(502, some (proxyUnavailable (runContext env req).requestId))] := by
    rintro ⟨m, hthrown⟩
    rw [show ans = .error (.serviceUnavailable m) by rw [hans, hthrown]; rfl] at hstages
    exact @clientResponses_of_unavailable cfg env req timestamp hm m
      (g.context cfg (runContext env req)) tr₁ hstages
  cases admitted with
  | false =>
    obtain ⟨hnone, hthrown⟩ := hopen rfl
    refine iff_of_true (hunavailable hthrown) fun hex => ?_
    simp [Exhausted, hnone] at hex
  | true =>
    have hdelivered : Delivered maxRetries os proxy.1.1 := hclosed rfl
    by_cases hex : Exhausted maxRetries os
    · refine iff_of_false ?_ (not_not.mpr hex)
      obtain ⟨m, code, hthrown⟩ := hdelivered.exhausted hex
      rw [show ans = .error (.error m) by rw [hans, hthrown]; rfl] at hstages
      rw [clientResponses_of_error timestamp hm hstages]
      simp [HttpExceptionFilter.catch_, Err.getStatus]
    · refine iff_of_true ?_ hex
      rcases hcase with h | h | ⟨response, hlast, hstatus⟩
      · cases h
      · exact absurd h hex
      · exact hunavailable (hdelivered.failed hex response hlast hstatus)

end Run

/-! The service `users` behind a closed breaker, with the same outcome at every attempt. -/

def steadyNetwork (o : AxiosOutcome) : Env ProxyCall ProxyReply := fun tr op =>
  match op with
  | .axios _ => o
  | op => ProxyService.calmEnv tr op

def steadyEnv (o : AxiosOutcome) : Env Call Reply := fun tr op =>
  match op with
  | .forward r claims score =>
    forwardReply (exec (steadyNetwork o) (usersProxy.forward r claims score) () []).1.1
  | op => sampleEnv tr op

def steadyWorld (o : AxiosOutcome) : ServedBy usersProxy (steadyEnv o) where
  network := fun _ => steadyNetwork o
  forward := fun _ _ _ _ => rfl

def refused : AxiosOutcome := .error (.error "connect ECONNREFUSED" (some "ECONNREFUSED"))

def failing : AxiosOutcome := .ok { ProxyService.calmResponse with status := 500 }

private theorem steady_forward (o : AxiosOutcome) {r : Request} (h : r.rawUrl = "/users/1")
    (claims : UserClaims) (score : JsNum) :
    ∃ config tr₀, exec (steadyNetwork o) (usersProxy.forward r claims score) () [] =
        exec (steadyNetwork o) (usersProxy.deliver "users".toList config) () tr₀ ∧
      outcomes tr₀ = [] := by
  have htarget : usersProxy.resolveTarget "/users/1" = .ok ("users".toList,
      { scheme := .http, host := some "users".toList, port := some 3000,
        path := .segments ["1".toList] }) := by decide +kernel
  have hbreaker : usersProxy.breakers.contains (String.ofList "users".toList) = true := by
    decide +kernel
  have hsafe : ∀ hostname tr, exec (steadyNetwork o) (assertSafe hostname) () tr =
      ((.ok (), ()), tr ++ [⟨.lookup hostname, .ok "10.0.0.1"⟩]) := by
    intro hostname tr
    have hcalm := ProxyService.assertSafe_calm hostname tr
    rw [assertSafe, exec_bind, exec_call] at hcalm ⊢
    exact hcalm
  unfold ProxyService.forward
  rw [h, htarget]
  simp only [exec_bind, hsafe, hbreaker, if_true]
  exact ⟨_, _, rfl, rfl⟩

/-- four attempts, with the backoff between them -/
private theorem deliver_refused (config : AxiosRequestConfig) (tr : Trace ProxyCall ProxyReply) :
    exec (steadyNetwork refused) (usersProxy.deliver "users".toList config) () tr =
      ((refused, ()), tr ++ [⟨.admits "users".toList, true⟩] ++ [⟨.axios config, refused⟩] ++
        [⟨.sleep 100, ()⟩] ++ [⟨.axios config, refused⟩] ++ [⟨.sleep 200, ()⟩] ++
        [⟨.axios config, refused⟩] ++ [⟨.sleep 400, ()⟩] ++ [⟨.axios config, refused⟩]) := by
  rfl

private theorem deliver_failing (config : AxiosRequestConfig) (tr : Trace ProxyCall ProxyReply) :
    (exec (steadyNetwork failing) (usersProxy.deliver "users".toList config) () tr).2 =
      tr ++ [⟨.admits "users".toList, true⟩] ++ [⟨.axios config, failing⟩] := by
  rfl

private theorem steady_forwards {o : AxiosOutcome}
    (h : (runTrace sampleConfig (steadyEnv o) sampleRequest).any (·.op.isForward) = true) :
    ∃ (pre post : Trace Call Reply) (r : Request) (claims : UserClaims) (score : JsNum)
      (ans : Except Err Upstream), r.rawUrl = "/users/1" ∧
      runTrace sampleConfig (steadyEnv o) sampleRequest =
        pre ++ ⟨.forward r claims score, ans⟩ :: post := by
  obtain ⟨⟨op, ans⟩, he, hf⟩ := List.any_eq_true.mp h
  obtain ⟨pre, post, hcut⟩ := List.append_of_mem he
  cases op <;> simp only [Call.isForward, Bool.false_eq_true] at hf
  obtain ⟨g, tr₁, -, -, rfl, -⟩ := forwarded_run hcut
  refine ⟨pre, post, _, _, _, _, ?_, hcut⟩
  have hurl : (g.context sampleConfig (runContext (steadyEnv o) sampleRequest)).req.rawUrl =
      (runContext (steadyEnv o) sampleRequest).req.rawUrl := rfl
  rw [hurl, runContext_req]
  rfl

/-- A service that answers 500. -/
theorem upstream_failure_mapped_failing :
    clientResponses "" (Prog.exec (steadyEnv failing) []
      (GatewayMiddleware.use sampleConfig sampleRequest)) =
        [(502, some (proxyUnavailable
          (runContext (steadyEnv failing) sampleRequest).requestId))] := by
  obtain ⟨pre, post, r, claims, score, ans, hurl, hrun⟩ := @steady_forwards failing
    (by decide +kernel)
  obtain ⟨config, tr₀, heq, hnone⟩ := steady_forward failing hurl claims score
  have htrace := congrArg Prod.snd heq
  rw [deliver_failing] at htrace
  have hout : outcomes (exec (steadyNetwork failing) (usersProxy.forward r claims score) () []).2 =
      [failing] := by
    rw [htrace, outcomes_append, outcomes_append, hnone]
    rfl
  refine (upstream_failure_mapped sampleConfig (steadyEnv failing) sampleRequest usersRegistry 3
    plainPlatform asciiDomain (steadyWorld failing) "" pre post r claims score ans "users".toList
    true hrun ?_ (.inr (.inr ⟨{ ProxyService.calmResponse with status := 500 }, ?_, ?_⟩))).mpr ?_
  · exact htrace ▸ by simp
  · exact congrArg List.getLast? hout
  · decide
  · intro hex
    have hlen : [failing].length = 3 + 1 := (congrArg List.length hout).symm.trans hex.1
    cases hlen

/-- A service that refuses every connection: four attempts, and the client gets a 500. -/
theorem upstream_exhausted :
    ∃ (pre post : Trace Call Reply) (r : Request) (claims : UserClaims) (score : JsNum)
      (ans : Except Err Upstream),
      runTrace sampleConfig (steadyEnv refused) sampleRequest =
        pre ++ ⟨.forward r claims score, ans⟩ :: post ∧
      Exhausted usersProxy.maxRetries
        (outcomes (exec (steadyNetwork refused) (usersProxy.forward r claims score) () []).2) ∧
      clientResponses "" (Prog.exec (steadyEnv refused) []
        (GatewayMiddleware.use sampleConfig sampleRequest)) =
          [HttpExceptionFilter.catch_ "" (.error "connect ECONNREFUSED")] ∧
      (HttpExceptionFilter.catch_ "" (.error "connect ECONNREFUSED")).1 = 500 := by
  obtain ⟨pre, post, r, claims, score, ans, hurl, hrun⟩ := @steady_forwards refused
    (by decide +kernel)
  obtain ⟨config, tr₀, heq, hnone⟩ := steady_forward refused hurl claims score
  rw [deliver_refused] at heq
  have hout : outcomes (exec (steadyNetwork refused) (usersProxy.forward r claims score) () []).2 =
      [refused, refused, refused, refused] := by
    rw [heq]
    simp only [outcomes_append, hnone]
    rfl
  refine ⟨pre, post, r, claims, score, ans, hrun, ?_, ?_, rfl⟩
  · rw [hout]
    exact ⟨rfl, by decide⟩
  · obtain ⟨g, tr₁, hm, hans, -, -, -, -, hstages⟩ := forwarded_run hrun
    rw [(steadyWorld refused).forward] at hans
    have hans' : ans = .error (.error "connect ECONNREFUSED") := by
      rw [hans]
      exact congrArg forwardReply (congrArg (·.1.1) heq)
    rw [hans'] at hstages
    exact clientResponses_of_error "" hm hstages

end ZTG
