import ZtGateway.Proofs.Blacklists
import ZtGateway.Proofs.Forward
import ZtGateway.Proofs.Guards
import ZtGateway.Spec.Gateway

/-! Requests and revocations in any interleaving: a request gets through only if its token was not
revoked at the moment it was checked. -/

namespace ZTG

open Act

variable {env : Env Call Reply} {tr : Trace Call Reply} {cfg : GatewayConfig} {req : Request}

/-- the calls that let a request through: to its service, or to a handler of the gateway -/
def Call.admits : Call → Bool
  | .forward .. => true
  | .next => true
  | _ => false

theorem Call.admits_cases {op : Call} (h : op.admits = true) :
    op.isForward = true ∨ op.isNext = true := by
  cases op <;> simp_all [Call.admits, Call.isForward, Call.isNext]

/-- the two checks are behind it -/
def Vouched (req : Request) (claims : UserClaims) (pre : Trace Call Reply) : Prop :=
  ⟨.authenticate req, .ok (.ok claims)⟩ ∈ pre ∧ ⟨.isRevoked claims.jti, .ok false⟩ ∈ pre

theorem forward_vouched {pre post : Trace Call Reply} {e : Event Call Reply}
    (h : runTrace cfg env req = pre ++ e :: post) (he : e.op.isForward = true) :
    ∃ claims, Vouched req claims pre := by
  rcases e with ⟨op, ans⟩
  cases op <;> simp [Call.isForward] at he
  obtain ⟨g, fails, hat, -⟩ := forwarded_at h
  have hgate := hat.pre_gate
  have hmem : ∀ x ∈ g.calls cfg (runContext env req), x ∈ pre := by
    intro x hx
    rw [← hgate] at hx
    exact (Trace.mem_only.mp hx).1
  refine ⟨g.claims, hmem _ ?_, hmem _ ?_⟩
  · simp [GateAnswers.calls]
  · simp [GateAnswers.calls]

/-- `next()` is called after the stages are done. -/
theorem next_vouched {pre post : Trace Call Reply} {e : Event Call Reply} (hex : ¬ req.Exempt)
    (h : runTrace cfg env req = pre ++ e :: post) (he : e.op.isNext = true) :
    ∃ claims, Vouched req claims pre := by
  have hm : req.method ≠ "OPTIONS" := fun hm => hex (.inl hm)
  have hon : HandsOn cfg env req := ⟨e, by rw [h]; simp, he⟩
  obtain ⟨hno, -⟩ | ⟨-, -, claims, -, hgate⟩ := handed_on hon
  · exact absurd hno hex
  obtain ⟨rest, hrest, hclosing⟩ :=
    @guarded_closing env (runContext env req) (openingTrace env req) (PIPELINE_STAGES cfg)
  rw [← runTrace_eq hm] at hrest
  -- what the stages asked stands before the `next()`
  have hdone : (stagesRun cfg env req).2 <+: pre ++ [e] :=
    stages_done hm (h.trans (by simp) : runTrace cfg env req = (pre ++ [e]) ++ post) ⟨e, by simp, Call.answersClient_of_isNext he⟩
  have hbefore : (stagesRun cfg env req).2 <+: pre := by
    rcases List.prefix_concat_iff.mp hdone with heq | hpre
    · rw [stagesRun_not_next cfg env hm e (by rw [heq]; simp)] at he
      cases he
    · exact hpre
  have hstages : ∀ x ∈ vouched req claims, x ∈ pre := by
    intro x hx
    rw [← hgate] at hx
    obtain ⟨hx, hxgate⟩ := Trace.mem_only.mp hx
    rw [hrest] at hx
    rcases List.mem_append.mp hx with hx | hx
    · exact hbefore.subset hx
    · rw [(Call.late_rejects (Call.late_of_closing (hclosing x hx))).1] at hxgate
      cases hxgate
  exact ⟨claims, hstages _ (by simp [vouched]), hstages _ (by simp [vouched])⟩

/-! ## In any interleaving -/

namespace Gateway

variable {ι : Type} [DecidableEq ι] {reqs : ι → Request} {now : ℕ}
  {ms : List (ι × Turn Oracle RevocationOp)} {i : ι}

/-- What a session has done it could have done alone. -/
theorem session_alone (cfg : GatewayConfig) (reqs : ι → Request) (now : ℕ)
    (ms : List (ι × Turn Oracle RevocationOp)) (i : ι) :
    ∃ env new, runTrace cfg env (reqs i) = ((run cfg reqs now ms).locals i).trace ++ new :=
  (Session.follows_run serve RevocationState.step (fun i => GatewayMiddleware.use cfg (reqs i))
    (RevocationState.init now) ms i).begins sampleEnv

/-- the revocations so far, with nothing forgotten -/
def ledger (now : ℕ) (ms : List (ι × Turn Oracle RevocationOp)) : Revocations :=
  runSteps Revocations.step ⟨fun _ => none, now⟩ (ms.filterMap fun m => m.2.other?)

theorem serve_refines (oracle : Oracle) {st : RevocationState} {l : Revocations} (op : Call)
    (h : st.Refines l) : (serve oracle st op).2.Refines l := by
  cases op with
  | isRevoked jti => exact (h.step (.isRevoked jti)).2
  | _ => exact h

/-- The service answers every session by the ledger. -/
theorem shared_refines (cfg : GatewayConfig) (reqs : ι → Request) (now : ℕ)
    (ms : List (ι × Turn Oracle RevocationOp)) :
    (run cfg reqs now ms).shared.Refines (ledger now ms) :=
  Session.shared_follows (R := RevocationState.Refines) (fun k _ _ op h => serve_refines k op h)
    (fun _ _ x h => (h.step x).2) ⟨rfl, fun _ => rfl⟩ ms

/-- In every interleaving of requests, revocations and the clock: a request is exempt, or has not
been let through so far, or its token was authenticated and was not on the ledger of revocations on
the turn on which the request asked for it. -/
theorem served_unrevoked (cfg : GatewayConfig) (reqs : ι → Request) (now : ℕ)
    (ms : List (ι × Turn Oracle RevocationOp)) (i : ι) :
    let session := fun ms' => ((run cfg reqs now ms').locals i).trace
    (reqs i).Exempt ∨ (∀ e ∈ session ms, e.op.admits = false) ∨
      ∃ claims ms₁ oracle ms₂, ms = ms₁ ++ (i, .call oracle) :: ms₂ ∧
        ⟨.authenticate (reqs i), .ok (.ok claims)⟩ ∈ session ms ∧
        session (ms₁ ++ [(i, .call oracle)]) =
          session ms₁ ++ [⟨.isRevoked claims.jti, .ok false⟩] ∧
        (ledger now ms₁).inForce claims.jti = none := by
  intro session
  by_cases hex : (reqs i).Exempt
  · exact .inl hex
  refine .inr ?_
  by_cases hserved : ∀ e ∈ session ms, e.op.admits = false
  · exact .inl hserved
  refine .inr ?_
  obtain ⟨e, he, hadmits⟩ : ∃ e ∈ session ms, ¬ e.op.admits = false := by
    by_contra hall
    exact hserved fun e he => by_contra fun h => hall ⟨e, he, h⟩
  obtain ⟨env, new, halone⟩ := session_alone cfg reqs now ms i
  obtain ⟨pre, post, hsplit⟩ := List.append_of_mem he
  have hrun : runTrace cfg env (reqs i) = pre ++ e :: (post ++ new) := by
    rw [halone, show ((run cfg reqs now ms).locals i).trace = pre ++ e :: post from hsplit]
    simp
  obtain ⟨claims, hauth, hrevoked⟩ : ∃ claims, Vouched (reqs i) claims pre := by
    rcases Call.admits_cases (by simpa using hadmits) with hforward | hnext
    · exact forward_vouched hrun hforward
    · exact next_vouched hex hrun hnext
  have hmem : ∀ x ∈ pre, x ∈ session ms := fun x hx => by rw [hsplit]; simp [hx]
  obtain ⟨ms₁, oracle, ms₂, rfl, hturn, hans⟩ := Session.event_turn (hmem _ hrevoked)
  refine ⟨claims, ms₁, oracle, ms₂, rfl, hmem _ hauth, hturn, ?_⟩
  obtain ⟨hlive, -⟩ := (shared_refines cfg reqs now ms₁).getEntry claims.jti
  have hfalse : ((run cfg reqs now ms₁).shared.isRevoked claims.jti).1 = false :=
    (Except.ok.inj hans).symm
  rw [((run cfg reqs now ms₁).shared.isRevoked_eq claims.jti).1, hlive] at hfalse
  exact Option.not_isSome_iff_eq_none.mp (by simp [hfalse])

end Gateway

end ZTG
