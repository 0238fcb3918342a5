import ZtGateway.Proofs.Bypass
import ZtGateway.Proofs.Forward
import ZtGateway.Spec.Gateway

/-! The `AUTH_INVALID_TOKEN` signals: one for each request that is turned away for its token, and
none for any other. -/

namespace ZTG

open Act

variable {env : Env Call Reply} {s s' : StageContext} {tr tr' : Trace Call Reply}
  {cfg : GatewayConfig} {req : Request}

/-- The stages after `AuthStage` leave the token alone. -/
theorem laterStages_token (cfg : GatewayConfig) :
    TokenQuiet (runStages (wrapStages (revocationStage cfg :: authOnlyShortCircuitStage cfg ::
      scoredStages cfg))) := by
  refine runStages_uses (fun op => Call.not_ofToken_of_noise) fun st hst => ?_
  rcases List.mem_cons.mp hst with rfl | hst
  · exact revocation_later.uses
  · rcases List.mem_cons.mp hst with rfl | hst
    · exact authOnly_token
    · exact (scoredStages_later st hst).uses

/-! ## One run -/

/-- The token is asked about once, and reported at once if it is invalid, and only then. -/
def TokenChecked (req : Request) (calls : Trace Call Reply) : Prop :=
  (∃ ans : Except Err AuthOutcome, (∀ reason message, ans ≠ .ok (.invalid reason message)) ∧
      calls = [⟨.authenticate req, ans⟩]) ∨
    ∃ reason message ts, calls = [⟨.authenticate req, .ok (.invalid reason message)⟩,
      ⟨.emit .authInvalidToken (some (buildAuthInvalidPayload req ts)), ()⟩]

private theorem exec_record_token (cfg : GatewayConfig) (env : Env Call Reply) (s : StageContext)
    (tr : Trace Call Reply) (entry : AuditEntry) (h : entry.decision ≠ .allow) :
    ∃ new, exec env (recordWithTimeoutBestEffort cfg.audit entry) s tr = ((.ok (), s), tr ++ new) ∧
      ∀ e ∈ new, e.op.ofToken = false := by
  obtain ⟨a, tr', hx⟩ := (@recordWithTimeoutBestEffort_succeeds cfg.audit entry h).exec_ok env s tr
  obtain ⟨new, hnew, hquiet⟩ := exec_uses (token_record cfg entry) env s tr
  rw [hx] at hnew
  exact ⟨new, hx.trans (Prod.ext rfl hnew), hquiet⟩

/-- `AuthStage` goes on with a token it asked about, or has checked it and goes no further. -/
theorem exec_authStage (env : Env Call Reply) (s : StageContext) (tr : Trace Call Reply)
    (cfg : GatewayConfig) :
    ∃ calls, TokenChecked s.req calls ∧
      (exec env (authStage cfg).run s tr).2.only Call.ofToken = tr.only Call.ofToken ++ calls := by
  simp only [authStage]
  rw [exec_bind, exec_get]
  simp only []
  rw [exec_bind, exec_call]
  rcases ho : env tr (.authenticate s.req) with e | ⟨claims | ⟨reason, message⟩⟩
  · exact ⟨[⟨.authenticate s.req, .error e⟩], .inl ⟨_, by simp, rfl⟩, by
      simp [Call.ofToken, Call.isAuthenticate]⟩
  · exact ⟨[⟨.authenticate s.req, .ok (.ok claims)⟩], .inl ⟨_, by simp, rfl⟩, by
      simp [exec_bind, Call.ofToken, Call.isAuthenticate]⟩
  · obtain ⟨rest, hrest, hquiet⟩ := exec_record_token cfg env s
      (tr ++ [⟨.authenticate s.req, .ok (.invalid reason message)⟩])
      { userId := "anonymous", resource := s.reqPath, action := s.req.method,
        decision := .deny, ja4hFingerprint := s.ja4h, ipAddress := some (extractIp s.req),
        requestId := some s.requestId } (by simp)
    simp only [id_eq]
    rw [exec_bind, hrest]
    simp only [exec_bind, exec_call, exec_tell, exec_pure]
    refine ⟨_, .inr ⟨reason, message, env (tr ++ [⟨.authenticate s.req,
      .ok (.invalid reason message)⟩] ++ rest) .now, rfl⟩, ?_⟩
    simp [Trace.only_eq_nil hquiet, Call.ofToken, Call.isAuthenticate, Call.tokenSignal]

/-- From `AuthStage` on, the stages check the token once. -/
theorem exec_authStages (env : Env Call Reply) (s : StageContext) (tr : Trace Call Reply)
    (cfg : GatewayConfig) :
    ∃ calls, TokenChecked s.req calls ∧
      (exec env (runStages (wrapStages (authStage cfg :: revocationStage cfg ::
        authOnlyShortCircuitStage cfg :: scoredStages cfg))) s tr).2.only Call.ofToken =
          tr.only Call.ofToken ++ calls := by
  obtain ⟨tr₀, tr₁, h₀, h₁, hx⟩ := @exec_runStages_cons env s tr (authStage cfg)
  obtain ⟨calls, hcalls, hauth⟩ := exec_authStage env s tr₀ cfg
  refine ⟨calls, hcalls, ?_⟩
  rw [← h₀.ofToken, ← hauth, ← h₁.ofToken, hx]
  rcases (exec env (authStage cfg).run s tr₀).1 with ⟨e | outcome, s₁⟩
  · rfl
  · cases outcome with
    | continue_ =>
      obtain ⟨new, hnew, hquiet⟩ := exec_uses (laterStages_token cfg) env s₁ tr₁
      simp only []
      rw [hnew, Trace.only_append, Trace.only_eq_nil hquiet, List.append_nil]
    | bypass => rfl
    | shortCircuit status body headers challenge => rfl
    | proxied status body => rfl

theorem finish_token (r : Except Err StageOutcome) : TokenQuiet (finish r) := by
  have herror : ∀ e, TokenQuiet (handleTerminalError e) := by
    intro e
    refine .bind .get fun ctx => ?_
    cases e with
    | auditExhausted m =>
      exact .bind (.tell (by rfl)) fun _ => .bind (.call (by rfl) _) fun _ =>
        .bind (.tell (by rfl)) fun _ => .tell (by rfl)
    | serviceUnavailable m => exact .tell (by rfl)
    | unauthorized m => exact .tell (by rfl)
    | http status m => exact .throw _
    | error m => exact .throw _
  cases r with
  | error e => exact herror e
  | ok outcome =>
    refine .tryCatch ?_ herror
    cases outcome with
    | continue_ => exact .throw _
    | bypass => exact .tell (by rfl)
    | shortCircuit status body headers challenge => exact .tell (by rfl)
    | proxied status body => exact .bind (.tell (by rfl)) fun _ => .tell (by rfl)

/-- The stages of a run check the token, and nothing after them touches it. -/
theorem stagesRun_token (cfg : GatewayConfig) (env : Env Call Reply) (hex : ¬ req.Exempt) :
    TokenChecked req ((stagesRun cfg env req).2.only Call.ofToken) := by
  rcases pipeline_paths cfg env (runContext env req) (openingTrace env req) with
    ⟨hpath, -⟩ | ⟨-, tr', hnoise, hx⟩
  · rw [runContext_reqPath] at hpath
    exact absurd (.inr hpath) hex
  · obtain ⟨calls, hcalls, hrun⟩ := exec_authStages env (runContext env req) tr' cfg
    rw [runContext_req] at hcalls
    rw [stagesRun, hx, hrun, hnoise.ofToken, opening_noise.ofToken]
    exact hcalls

theorem runTrace_token (cfg : GatewayConfig) (env : Env Call Reply) (hex : ¬ req.Exempt) :
    (runTrace cfg env req).only Call.ofToken = (stagesRun cfg env req).2.only Call.ofToken := by
  have hm : req.method ≠ "OPTIONS" := fun hm => hex (.inl hm)
  have hnoise : AddsNoise (exec env (finish (stagesRun cfg env req).1.1)
      (stagesRun cfg env req).1.2 (stagesRun cfg env req).2).2 (runTrace cfg env req) :=
    (run_finish hm).2.1
  obtain ⟨new, hnew, hquiet⟩ := exec_uses (finish_token (stagesRun cfg env req).1.1) env
    (stagesRun cfg env req).1.2 (stagesRun cfg env req).2
  rw [hnoise.ofToken, hnew, Trace.only_append, Trace.only_eq_nil hquiet, List.append_nil]

/-! ## In any interleaving -/

/-- the session has reported its token -/
def Signalled (tr : Trace Call Reply) : Prop := ∃ e ∈ tr, e.op.tokenSignal = true

instance (tr : Trace Call Reply) : Decidable (Signalled tr) :=
  inferInstanceAs (Decidable (∃ e ∈ tr, e.op.tokenSignal = true))

theorem Call.ofToken_of_tokenSignal {op : Call} (h : op.tokenSignal = true) :
    op.ofToken = true := by
  simp [Call.ofToken, h]

theorem only_token_exempt {new : Trace Call Reply} (hex : req.Exempt)
    (h : runTrace cfg env req = tr ++ new) : tr.only Call.ofToken = [] := by
  have hmaterial : ∀ op : Call, op.ofToken = true → op.material = true := by
    intro op hop
    by_contra hm
    rw [Call.not_ofToken_of_noise (by simpa using hm)] at hop
    cases hop
  have hquiet : (runTrace cfg env req).only Call.ofToken = [] := by
    rw [← Trace.only_only hmaterial, exempt_handed_on hex]
    rfl
  rw [h, Trace.only_append] at hquiet
  exact (List.append_eq_nil_iff.mp hquiet).1

/-- Of one request the calls about its token are a beginning of one check. -/
theorem only_token_cases {new : Trace Call Reply} (h : runTrace cfg env req = tr ++ new) :
    tr.only Call.ofToken = [] ∨ (∃ ans, tr.only Call.ofToken = [⟨.authenticate req, ans⟩]) ∨
      ∃ reason message ts, tr.only Call.ofToken =
        [⟨.authenticate req, .ok (.invalid reason message)⟩,
          ⟨.emit .authInvalidToken (some (buildAuthInvalidPayload req ts)), ()⟩] := by
  by_cases hex : req.Exempt
  · exact .inl (only_token_exempt hex h)
  · have hprefix : tr.only Call.ofToken <+: (runTrace cfg env req).only Call.ofToken := by
      rw [h, Trace.only_append]
      exact List.prefix_append _ _
    rw [runTrace_token cfg env hex] at hprefix
    rcases stagesRun_token cfg env hex with
      ⟨ans, -, hone⟩ | ⟨reason, message, ts, htwo⟩
    · rw [hone] at hprefix
      rcases List.prefix_cons_iff.mp hprefix with hnil | ⟨rest, hrest, hend⟩
      · exact .inl hnil
      · rw [List.prefix_nil.mp hend] at hrest
        exact .inr (.inl ⟨ans, hrest⟩)
    · rw [htwo] at hprefix
      rcases List.prefix_cons_iff.mp hprefix with hnil | ⟨rest, hrest, hend⟩
      · exact .inl hnil
      · rcases List.prefix_cons_iff.mp hend with rfl | ⟨rest', rfl, hend'⟩
        · exact .inr (.inl ⟨_, hrest⟩)
        · rw [List.prefix_nil.mp hend'] at hrest
          exact .inr (.inr ⟨reason, message, ts, hrest⟩)

theorem only_tokenSignal (tr : Trace Call Reply) :
    tr.only Call.tokenSignal = (tr.only Call.ofToken).only Call.tokenSignal :=
  (Trace.only_only (fun _ => Call.ofToken_of_tokenSignal) tr).symm

/-- A request is reported at most once. -/
theorem signals_of_session {new : Trace Call Reply} (h : runTrace cfg env req = tr ++ new) :
    (tr.only Call.tokenSignal).length = if Signalled tr then 1 else 0 := by
  have hsignalled : Signalled tr ↔ tr.only Call.tokenSignal ≠ [] := by
    rw [← List.length_pos_iff_ne_nil, List.length_pos_iff_exists_mem]
    exact exists_congr fun e => Trace.mem_only.symm
  have hle : (tr.only Call.tokenSignal).length ≤ 1 := by
    rw [only_tokenSignal]
    rcases only_token_cases h with hnone | ⟨ans, hone⟩ | ⟨reason, message, ts, htwo⟩
    · simp [hnone]
    · simp [hone, Call.tokenSignal]
    · simp [htwo, Call.tokenSignal]
  split_ifs with hs
  · have := List.length_pos_iff_ne_nil.mpr (hsignalled.mp hs)
    omega
  · exact List.length_eq_zero_iff.mpr (not_not.mp fun hne => hs (hsignalled.mpr hne))

/-- Once a request has been answered its token has been checked. -/
theorem checked_of_answered {new : Trace Call Reply} (hex : ¬ req.Exempt)
    (h : runTrace cfg env req = tr ++ new) (hans : ∃ e ∈ tr, e.op.answersClient = true) :
    TokenChecked req (tr.only Call.ofToken) := by
  have hm : req.method ≠ "OPTIONS" := fun hm => hex (.inl hm)
  obtain ⟨mid, rfl⟩ := stages_done hm h hans
  have hall := runTrace_token cfg env hex
  rw [h, List.append_assoc, Trace.only_append, List.append_right_eq_self, Trace.only_append,
    List.append_eq_nil_iff] at hall
  rw [Trace.only_append, hall.1, List.append_nil]
  exact stagesRun_token cfg env hex

/-- Once a request has been answered it is reported exactly if its token was found invalid. -/
theorem answered_signalled {new : Trace Call Reply} (h : runTrace cfg env req = tr ++ new)
    (hans : ∃ e ∈ tr, e.op.answersClient = true) :
    Signalled tr ↔ ∃ reason message, ⟨.authenticate req, .ok (.invalid reason message)⟩ ∈ tr := by
  have hsignal : Signalled tr ↔ ∃ e ∈ tr.only Call.ofToken, e.op.tokenSignal = true :=
    exists_congr fun e => ⟨fun he => ⟨Trace.mem_only.mpr ⟨he.1, Call.ofToken_of_tokenSignal he.2⟩,
      he.2⟩, fun he => ⟨(Trace.mem_only.mp he.1).1, he.2⟩⟩
  have hask : ∀ ans, (⟨.authenticate req, ans⟩ : Event Call Reply) ∈ tr ↔
      ⟨.authenticate req, ans⟩ ∈ tr.only Call.ofToken := fun ans =>
    ⟨fun he => Trace.mem_only.mpr ⟨he, rfl⟩, fun he => (Trace.mem_only.mp he).1⟩
  rw [hsignal]
  simp only [hask]
  by_cases hex : req.Exempt
  · simp [only_token_exempt hex h]
  · rcases checked_of_answered hex h hans with ⟨ans, hvalid, hone⟩ | ⟨reason, message, ts, htwo⟩
    · rw [hone]
      constructor
      · simp [Call.tokenSignal]
      · rintro ⟨reason, message, hmem⟩
        simp only [List.mem_singleton, Event.mk.injEq, heq_eq_eq, true_and] at hmem
        exact absurd hmem.symm (hvalid reason message)
    · rw [htwo]
      exact ⟨fun _ => ⟨reason, message, List.mem_cons_self⟩,
        fun _ => ⟨_, List.mem_cons_of_mem _ List.mem_cons_self, rfl⟩⟩

namespace Gateway

variable {ι : Type} [DecidableEq ι] {reqs : ι → Request}

/-- an invalid-token signal that a request caused -/
def Heard.isRejection (h : Heard) : Bool :=
  match h with
  | ⟨.signal _ .authInvalidToken, true⟩ => true
  | _ => false

theorem hear_rejections (m : Moment) (heard : List Heard) (op : Call) :
    (hear m heard op).2.countP Heard.isRejection =
      heard.countP Heard.isRejection + op.tokenSignal.toNat := by
  cases op with
  | emit event payload =>
    cases event <;> simp [hear, signalOf, Call.tokenSignal, Heard.isRejection]
  | _ => rfl

/-- What a session of this world has done it could have done alone. -/
theorem alarm_alone (cfg : GatewayConfig) (reqs : ι → Request)
    (ms : List (ι × Turn Moment ThreatOp)) (i : ι) :
    ∃ env new, runTrace cfg env (reqs i) = ((alarms cfg reqs ms).locals i).trace ++ new :=
  (Session.follows_run hear overhear (fun i => GatewayMiddleware.use cfg (reqs i)) [] ms i).begins sampleEnv

theorem overhear_rejections (heard : List Heard) (op : ThreatOp) :
    (overhear heard op).countP Heard.isRejection = heard.countP Heard.isRejection := by
  simp [overhear, Heard.isRejection]

/-- Every signal of a session is heard, and no other counts as a rejection. -/
theorem act_rejections {turn : Turn Moment ThreatOp} {l l' : Session Call Reply (Except Err Unit)}
    {s s' : List Heard} (h : Session.act hear overhear turn l s = some (l', s')) :
    ((l'.trace.only Call.tokenSignal).length : ℤ) + -(s'.countP Heard.isRejection : ℤ) =
      (l.trace.only Call.tokenSignal).length + -(s.countP Heard.isRejection : ℤ) := by
  cases turn with
  | other op =>
    simp only [Session.act, Option.some.injEq, Prod.mk.injEq] at h
    obtain ⟨rfl, rfl⟩ := h
    rw [overhear_rejections]
  | call m =>
    rcases l with ⟨tr, _ | ⟨op, f⟩⟩
    · simp [Session.act] at h
    · simp only [Session.act, Option.some.injEq, Prod.mk.injEq] at h
      obtain ⟨rfl, rfl⟩ := h
      rw [hear_rejections]
      cases hsignal : op.tokenSignal with
      | false => simp [hsignal]
      | true => simp [hsignal]

/-- In every interleaving of any requests and anything else done to the threat service: the
invalid-token signals it has heard from requests are as many as the requests that were reported,
each reported at most once; and a request that was answered is reported exactly if its token was
found invalid. -/
theorem rejections_counted [Fintype ι] (cfg : GatewayConfig) (reqs : ι → Request)
    (ms : List (ι × Turn Moment ThreatOp)) :
    let w := alarms cfg reqs ms
    w.shared.countP Heard.isRejection =
      (Finset.univ.filter fun i => Signalled (w.locals i).trace).card ∧
    ∀ i, (∃ e ∈ (w.locals i).trace, e.op.answersClient = true) →
      (Signalled (w.locals i).trace ↔ ∃ reason message,
        ⟨.authenticate (reqs i), .ok (.invalid reason message)⟩ ∈ (w.locals i).trace) := by
  intro w
  refine ⟨?_, fun i hans => ?_⟩
  · have hcount : ∀ i, ((w.locals i).trace.only Call.tokenSignal).length =
        if Signalled (w.locals i).trace then 1 else 0 := by
      intro i
      obtain ⟨env, new, halone⟩ := alarm_alone cfg reqs ms i
      exact signals_of_session halone
    have hend : (∑ i, ((w.locals i).trace.only Call.tokenSignal).length : ℤ) +
        -(w.shared.countP Heard.isRejection : ℤ) = 0 := by
      refine (Pool.total_run (f := fun l : Session Call Reply (Except Err Unit) =>
        ((l.trace.only Call.tokenSignal).length : ℤ)) (g := fun heard : List Heard =>
          -(heard.countP Heard.isRejection : ℤ)) (fun _ _ _ _ _ _ h => act_rejections h)
        (Session.start (fun i => GatewayMiddleware.use cfg (reqs i)) []) ms).trans ?_
      simp [Pool.total, Session.start]
    rw [Finset.card_filter, ← Finset.sum_congr rfl fun i _ => hcount i]
    zify
    omega
  · obtain ⟨env, new, halone⟩ := alarm_alone cfg reqs ms i
    exact answered_signalled halone hans

end Gateway

end ZTG
