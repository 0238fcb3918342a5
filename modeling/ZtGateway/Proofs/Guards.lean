import ZtGateway.Proofs.Bypass

/-! Who reaches a handler of the gateway's own controllers, and with which checks made. -/

namespace ZTG

open Act

variable {env : Env Call Reply} {s s' : StageContext} {tr tr' : Trace Call Reply}
  {cfg : GatewayConfig} {req : Request} {route : Route}

/-- the roles of `@Roles(...)`, none where nothing is asked -/
def Route.requires (route : Route) : List String := route.roles.getD []

/-- the request `AuthStage` and `JwtAuthGuard` leave -/
def Request.withClaims (req : Request) (claims : UserClaims) : Request :=
  { req with user := some claims, gatewayValidated := true }

/-- the roles of `@Roles(...)` let these claims through -/
def Route.admits (route : Route) (claims : UserClaims) : Prop :=
  route.requires = [] ∨ ∃ role ∈ route.requires, role ∈ claims.roles

/-- the request as the middleware leaves it -/
def requestAfter (cfg : GatewayConfig) (env : Env Call Reply) (req : Request) : Request :=
  (Prog.exec env [] (GatewayMiddleware.handle cfg req)).1.2

/-- When the stages step aside, nothing touches the request any more. -/
theorem guarded_bypass {stages : List PipelineStage}
    (h : exec env (runStages stages) s tr = ((.ok .bypass, s'), tr')) :
    (exec env (guarded stages) s tr).1.2 = s' := by
  unfold guarded
  simp [exec_bind, exec_tryCatch, h, writeOutcome]

theorem requestAfter_eq (hm : req.method ≠ "OPTIONS")
    (h : stagesRun cfg env req = ((.ok .bypass, s'), tr')) : requestAfter cfg env req = s'.req := by
  rw [requestAfter, GatewayMiddleware.handle, exec_over _ hm]
  exact congrArg StageContext.req (guarded_bypass h)

theorem exempt_not_authOnly {path : String} (h : path ∈ PUBLIC_PATHS ∨ path ∈ HONEYPOT_PATHS) :
    isAuthOnlyPath path = false := by
  have hall : ∀ p ∈ PUBLIC_PATHS ++ HONEYPOT_PATHS, isAuthOnlyPath p = false := by decide +kernel
  exact hall path (List.mem_append.mpr h)

/-- the two checks of `AuthStage` and `RevocationStage`, passed -/
def vouched (req : Request) (claims : UserClaims) : Trace Call Reply :=
  [⟨.authenticate req, .ok (.ok claims)⟩, ⟨.isRevoked claims.jti, .ok false⟩]

/-- A request the middleware hands on is exempt and untouched, or carries the claims of a token
that was authenticated and found not revoked. -/
theorem handed_on (h : HandsOn cfg env req) :
    (req.Exempt ∧ requestAfter cfg env req = req) ∨
      (¬ req.Exempt ∧ isAuthOnlyPath (beforeQuery req.rawUrl) = true ∧
        ∃ claims, requestAfter cfg env req = req.withClaims claims ∧
          (runTrace cfg env req).only Call.gate = vouched req claims) := by
  by_cases hm : req.method = "OPTIONS"
  · refine .inl ⟨.inl hm, ?_⟩
    rw [requestAfter, GatewayMiddleware.handle, exec_over_options _ hm]
  rw [handsOn_iff hm] at h
  rcases hrun : stagesRun cfg env req with ⟨⟨r, s'⟩, tr'⟩
  rw [hrun] at h
  obtain rfl : r = .ok .bypass := h
  obtain ⟨-, hnoise, -⟩ := @run_finish cfg env req hm
  rw [requestAfter_eq hm hrun]
  rcases pipeline_bypass hrun with ⟨hpath, rfl, -⟩ | ⟨hpath, claims, rfl, hgate⟩
  · rw [runContext_reqPath] at hpath
    exact .inl ⟨.inr hpath, runContext_req⟩
  · rw [runContext_reqPath] at hpath
    refine .inr ⟨?_, hpath, claims, by simp [StageContext.withClaims, Request.withClaims], ?_⟩
    · rintro (hopt | hexempt)
      · exact hm hopt
      · rw [exempt_not_authOnly hexempt] at hpath
        cases hpath
    · have hopen : (openingTrace env req).only Call.gate = [] := opening_noise.gate
      rw [runTrace, hnoise.gate]
      rw [stagesRun] at hrun
      rw [hrun]
      simp [finish, exec_tryCatch, writeOutcome, Call.gate, hgate, hopen, vouched]

end ZTG
