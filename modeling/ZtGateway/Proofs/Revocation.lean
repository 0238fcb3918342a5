import ZtGateway.Sanity.Revocation
import ZtGateway.Proofs.Forward

/-! When a revocation lasts until the token expires, and when a caller can only
touch revocations of tokens of their own. -/

namespace ZTG

open Act RevocationState

variable {st : RevocationState} {jti : String} {e : ℚ}

/-- A clock of whole milliseconds reaches a deadline when it reaches the next millisecond. -/
theorem natCast_lt_ceil {t : ℕ} {a : ℚ} : (t : ℚ) < a ↔ (t : ℤ) < ⌈a⌉ := by
  rw [Int.lt_ceil]
  norm_cast

/-- Until `e` (in seconds) the token is on the blacklist, with an expiry whose millisecond is not
before that of `e`. -/
def BlockedUntil (jti : String) (e : ℚ) (st : RevocationState) : Prop :=
  e * 1000 ≤ st.now ∨ ∃ entry, st.blacklist jti = some entry ∧ ⌈e * 1000⌉ ≤ ⌈entry.expiresAt⌉

/-- The step is not an accepted revoke of `jti` with an expiry before `e`, to the millisecond. -/
def KeepsExpiry (jti : String) (e : ℚ) (st : RevocationState) : RevocationOp → Prop
  | .revoke user dto => dto.jti = jti → ¬ st.Refuses user dto → ⌈e * 1000⌉ ≤ ⌈dto.expiresAtMs⌉
  | _ => True

private theorem Evicted.blockedUntil {st' : RevocationState} (h : Evicted st st')
    (hb : BlockedUntil jti e st) : BlockedUntil jti e st' := by
  unfold BlockedUntil at *
  rw [h.now]
  rcases hb with hb | ⟨entry, he, hle⟩
  · exact .inl hb
  · rcases h.kept jti with hk | ⟨-, entry', he', hle'⟩
    · exact .inr ⟨entry, hk ▸ he, hle⟩
    · obtain rfl := Option.some.inj (he.symm.trans he')
      have hceil : ⌈entry.expiresAt⌉ ≤ (st.now : ℤ) := Int.ceil_le.mpr (by exact_mod_cast hle')
      exact .inl (by exact_mod_cast Int.ceil_le.mp (hle.trans hceil))

private theorem revoke_blockedUntil {user : Option UserClaims} {dto : RevokeTokenDto}
    (hk : KeepsExpiry jti e st (.revoke user dto)) (hb : BlockedUntil jti e st) :
    BlockedUntil jti e (AuthController.revoke st user dto).2 := by
  rcases AuthController.revoke_cases st user dto with
    ⟨-, -, hev⟩ | ⟨u, st₁, rfl, hnot, hev, -, hnow, hbl⟩
  · exact Evicted.blockedUntil hev hb
  · by_cases hj : dto.jti = jti
    · subst hj
      exact .inr ⟨⟨dto.expiresAtMs, u.userId⟩, by rw [hbl, Function.update_self], hk rfl hnot⟩
    · rcases Evicted.blockedUntil hev hb with h | ⟨entry, he, hle⟩
      · exact .inl (by rw [hnow]; rwa [hev.now] at h)
      · exact .inr ⟨entry, by rw [hbl, Function.update_of_ne (Ne.symm hj)]; exact he, hle⟩

theorem step_blockedUntil (op : RevocationOp) (hb : BlockedUntil jti e st)
    (hk : KeepsExpiry jti e st op) : BlockedUntil jti e (st.step op) := by
  cases op with
  | revoke user dto => exact revoke_blockedUntil hk hb
  | isRevoked j => exact Evicted.blockedUntil isRevoked_evicted hb
  | getEntry j => exact Evicted.blockedUntil getEntry_evicted hb
  | advance ms =>
    rcases hb with hb | hb
    · exact .inl (hb.trans (by simp [step]))
    · exact .inr hb

/-- A revoked token is turned away by the stage. -/
theorem revocation_blocks {cfg : GatewayConfig} {env : Env Call Reply} {ctx : StageContext}
    {tr : Trace Call Reply} {claims : UserClaims} (hc : ctx.claims = some claims)
    (h : env tr (.isRevoked claims.jti) = .ok true) :
    ∃ tr', exec env (revocationStage cfg).run ctx tr =
      ((.ok (.shortCircuit 401
        (.obj [("error", .str "token_revoked"), ("requestId", .str ctx.requestId)]) [] false),
          ctx), tr') := by
  simp only [revocationStage]
  rw [exec_bind, exec_get]
  simp only [hc]
  rw [exec_bind, exec_call]
  simp only [h, id_eq, Bool.not_true, Bool.false_eq_true, ↓reduceIte]
  rw [exec_bind]
  obtain ⟨a, tr', hx⟩ := (@recordWithTimeoutBestEffort_succeeds cfg.audit
    { userId := claims.userId, resource := ctx.reqPath, action := ctx.req.method, decision := .deny,
      eventType := some "REVOCATION_BLOCKED", ja4hFingerprint := ctx.ja4h,
      ipAddress := some (extractIp ctx.req), requestId := some ctx.requestId }
      (by simp)).exec_ok env ctx (tr ++ [⟨.isRevoked claims.jti, .ok true⟩])
  rw [hx]
  exact ⟨tr', rfl⟩

/-- The stage asks this state of the service. -/
def Reads (env : Env Call Reply) (st : RevocationState) : Prop :=
  ∀ tr jti, env tr (.isRevoked jti) = .ok (st.isRevoked jti).1

/-- If no accepted revoke of the token, from the one answered 200 on, sets an expiry
before the token's own, every request with the token is stopped until the token expires. -/
theorem revocation_lasts (st : RevocationState) (user : Option UserClaims) (dto : RevokeTokenDto)
    (ops : List RevocationOp) (e : ℚ)
    (hok : (AuthController.revoke st user dto).1 = .ok "Token revoked")
    (hops : Along step (KeepsExpiry dto.jti e) st (.revoke user dto :: ops))
    (hnow : (runSteps step st (.revoke user dto :: ops)).now < e * 1000) (cfg : GatewayConfig)
    (env : Env Call Reply) (henv : Reads env (runSteps step st (.revoke user dto :: ops)))
    (ctx : StageContext) (tr : Trace Call Reply) (claims : UserClaims)
    (hclaims : ctx.claims = some claims) (hjti : claims.jti = dto.jti) :
    ∃ tr', exec env (revocationStage cfg).run ctx tr =
      ((.ok (.shortCircuit 401
        (.obj [("error", .str "token_revoked"), ("requestId", .str ctx.requestId)]) [] false),
          ctx), tr') := by
  have hstart : BlockedUntil dto.jti e (st.step (.revoke user dto)) := by
    rcases AuthController.revoke_cases st user dto with
      ⟨-, ⟨err, herr⟩, -⟩ | ⟨u, st₁, -, hnot, -, -, -, hbl⟩
    · rw [herr] at hok
      simp at hok
    · exact .inr ⟨⟨dto.expiresAtMs, u.userId⟩,
        (congrFun hbl dto.jti).trans (Function.update_self ..), hops.1 rfl hnot⟩
  have hend : BlockedUntil dto.jti e (runSteps step st (.revoke user dto :: ops)) := by
    rw [runSteps_cons]
    exact runSteps_invariant (fun s op hs hk => step_blockedUntil op hs hk) hstart hops.2
  refine revocation_blocks hclaims ?_
  rw [henv, hjti]
  rcases hend with h | ⟨entry, hentry, hle⟩
  · exact absurd hnow (not_lt.mpr h)
  · have hlive := natCast_lt_ceil.mpr ((natCast_lt_ceil.mp hnow).trans_le hle)
    exact congrArg Except.ok (revokedAt_iff.mpr ⟨entry, hentry, hlive⟩)

/-- a world whose revocation service is in state `st` -/
def readingEnv (st : RevocationState) : Env Call Reply := fun tr op =>
  match op with
  | .isRevoked jti => .ok (st.isRevoked jti).1
  | op => sampleEnv tr op

def revokeFor (exp : ℚ) : RevocationOp :=
  .revoke (some sampleClaims) { jti := "j", exp := exp, jti_nonempty := by decide }

def sampleContext : StageContext :=
  { req := sampleRequest, requestId := "r", startedAt := 0, reqPath := "/users/1",
    claims := some sampleClaims }

theorem revocation_lasts_sample :
    ∃ tr', exec (readingEnv (runSteps step (init 0) [revokeFor 10, .advance 9000]))
      (revocationStage sampleConfig).run sampleContext [] = ((.ok (.shortCircuit 401
        (.obj [("error", .str "token_revoked"), ("requestId", .str "r")]) [] false),
          sampleContext), tr') := by
  have hexpiry : RevokeTokenDto.expiresAtMs
      { jti := "j", exp := 10, jti_nonempty := by decide } = (10 : ℤ) * 1000 :=
    RevokeTokenDto.expiresAtMs_intCast (by norm_num) (by norm_num)
  refine revocation_lasts (init 0) (some sampleClaims)
    { jti := "j", exp := 10, jti_nonempty := by decide } [.advance 9000] 10 ?_ ?_ ?_ _ _
    (fun _ _ => rfl) _ _ sampleClaims rfl rfl
  · decide
  · refine ⟨fun _ _ => ?_, trivial, trivial⟩
    rw [hexpiry]
    norm_num
  · show ((9000 : ℕ) : ℚ) < 10 * 1000
    norm_num

/-- Alice's token `j` lives for ten seconds; she revokes it, is answered 200, and revokes it
again with an expiry in the past: nine seconds before its expiry the token is let through. -/
theorem revocation_forgotten :
    (AuthController.revoke (init 0) (some sampleClaims)
      { jti := "j", exp := 10, jti_nonempty := by decide }).1 = .ok "Token revoked" ∧
    (runSteps step (init 0) [revokeFor 10, revokeFor 0, .advance 1000]).now < (10 : ℚ) * 1000 ∧
    exec (readingEnv (runSteps step (init 0) [revokeFor 10, revokeFor 0, .advance 1000]))
      (revocationStage sampleConfig).run sampleContext [] =
      ((.ok .continue_, sampleContext), [⟨.isRevoked "j", .ok false⟩]) := by
  have hnow : (runSteps step (init 0) [revokeFor 10, revokeFor 0, .advance 1000]).now = 1000 := by
    decide +kernel
  have hnot : ((runSteps step (init 0) [revokeFor 10, revokeFor 0, .advance 1000]).isRevoked
      "j").1 = false := by
    decide +kernel
  refine ⟨by decide, by rw [hnow]; norm_num, ?_⟩
  generalize runSteps step (init 0) [revokeFor 10, revokeFor 0, .advance 1000] = st at hnot
  simp only [revocationStage]
  rw [exec_bind, exec_get]
  simp only [sampleContext]
  rw [exec_bind, exec_call]
  simp [readingEnv, sampleClaims, hnot]

/-- A call by someone without the admin role changes nothing about other users' tokens,
now or at any later time. -/
def TouchesOwnOnly (owner : String → String) (st : RevocationState) : RevocationOp → Prop
  | .revoke user dto => (∀ u, user = some u → u.isAdmin = false) →
      ∀ jti, (∀ u, user = some u → owner jti ≠ u.userId) → ∀ t, st.now ≤ t →
        (st.step (.revoke user dto)).revokedAt jti t = st.revokedAt jti t
  | _ => True

/-- The caller is an admin or owns the token, the call is refused because of a live entry of
someone else, or the expiry it sends is the one that is already in force. -/
def OwnedOrVoid (owner : String → String) (st : RevocationState) : RevocationOp → Prop
  | .revoke (some u) dto => u.isAdmin = true ∨ owner dto.jti = u.userId ∨ st.Refuses (some u) dto ∨
      match st.liveEntry dto.jti with
      | none => dto.expiresAtMs ≤ st.now
      | some entry => ⌈dto.expiresAtMs⌉ = ⌈entry.expiresAt⌉
  | _ => True

/-- Two deadlines that no millisecond from `now` on tells apart. -/
private theorem ceil_eq_iff {now : ℕ} {a b : ℚ} (hb : (now : ℚ) < b) :
    (∀ t : ℕ, now ≤ t → ((t : ℚ) < a ↔ (t : ℚ) < b)) ↔ ⌈a⌉ = ⌈b⌉ := by
  simp only [natCast_lt_ceil] at hb ⊢
  constructor
  · intro h
    refine le_antisymm (not_lt.mp fun hlt => ?_) (not_lt.mp fun hlt => ?_)
    · have := h ⌈b⌉.toNat (by omega)
      omega
    · have := h (max now ⌈a⌉.toNat) (by omega)
      omega
  · intro h t _
    rw [h]

private theorem void_iff {dto : RevokeTokenDto} :
    (∀ t : ℕ, st.now ≤ t → ((t : ℚ) < dto.expiresAtMs ↔ st.revokedAt dto.jti t = true)) ↔
      match st.liveEntry dto.jti with
      | none => dto.expiresAtMs ≤ st.now
      | some entry => ⌈dto.expiresAtMs⌉ = ⌈entry.expiresAt⌉ := by
  cases hlive : st.liveEntry dto.jti with
  | none =>
    constructor
    · intro h
      have := h st.now le_rfl
      rw [revokedAt_iff_live le_rfl, hlive] at this
      simpa using this
    · intro h t ht
      rw [revokedAt_iff_live ht, hlive]
      have : (st.now : ℚ) ≤ t := by exact_mod_cast ht
      simpa using h.trans this
  | some entry =>
    refine Iff.trans ?_ (ceil_eq_iff (liveEntry_iff.mp hlive).2)
    apply forall_congr'
    intro t
    apply forall_congr'
    intro ht
    rw [revokedAt_iff_live ht, hlive]
    simp

private theorem accepted_revokedAt {dto : RevokeTokenDto} {u : UserClaims}
    {st₁ st' : RevocationState} (hev : Evicted st st₁)
    (hbl : st'.blacklist = Function.update st₁.blacklist dto.jti (some ⟨dto.expiresAtMs, u.userId⟩))
    {t : ℕ} (ht : st.now ≤ t) :
    (st'.revokedAt dto.jti t = true ↔ (t : ℚ) < dto.expiresAtMs) ∧
      ∀ j ≠ dto.jti, st'.revokedAt j t = st.revokedAt j t := by
  refine ⟨?_, fun j hj => ?_⟩
  · rw [revokedAt_iff, hbl, Function.update_self]
    simp
  · rw [← hev.revokedAt ht, Bool.eq_iff_iff, revokedAt_iff, revokedAt_iff, hbl,
      Function.update_of_ne hj]

private theorem touchesOwnOnly_iff (owner : String → String) (st : RevocationState)
    (op : RevocationOp) : TouchesOwnOnly owner st op ↔ OwnedOrVoid owner st op := by
  cases op with
  | revoke user dto =>
    rcases AuthController.revoke_cases st user dto with
      ⟨href, -, hev⟩ | ⟨u, st₁, rfl, hnot, hev, -, -, hbl⟩
    · refine iff_of_true (fun _ j _ t ht => hev.revokedAt ht) ?_
      cases user with
      | none => trivial
      | some u => exact .inr (.inr (.inl href))
    · have hkey : ∀ t : ℕ, st.now ≤ t →
          (((st.step (.revoke (some u) dto)).revokedAt dto.jti t = true ↔
            (t : ℚ) < dto.expiresAtMs) ∧
          ∀ j ≠ dto.jti, (st.step (.revoke (some u) dto)).revokedAt j t = st.revokedAt j t) :=
        fun t ht => accepted_revokedAt hev hbl ht
      simp only [TouchesOwnOnly, OwnedOrVoid, ← void_iff, Option.some.injEq, forall_eq']
      constructor
      · intro h
        by_cases hadmin : u.isAdmin = true
        · exact .inl hadmin
        · by_cases hown : owner dto.jti = u.userId
          · exact .inr (.inl hown)
          · refine .inr (.inr (.inr fun t ht => ?_))
            rw [← (hkey t ht).1, h (by simpa using hadmin) dto.jti hown t ht]
      · rintro h hadmin j hj t ht
        by_cases hjd : j = dto.jti
        · subst hjd
          rcases h with h | h | h | h
          · simp [hadmin] at h
          · exact absurd h hj
          · exact absurd h hnot
          · rw [Bool.eq_iff_iff, (hkey t ht).1, h t ht]
        · exact (hkey t ht).2 j hjd
  | isRevoked j => exact Iff.rfl
  | getEntry j => exact Iff.rfl
  | advance ms => exact Iff.rfl

/-- In every run of the service, callers without the admin role touch only their own tokens
exactly when every call meets `OwnedOrVoid`. -/
theorem revocation_ownership (owner : String → String) (st : RevocationState)
    (ops : List RevocationOp) :
    Along step (TouchesOwnOnly owner) st ops ↔ Along step (OwnedOrVoid owner) st ops :=
  along_iff fun st op => touchesOwnOnly_iff owner st op

/-- Alice, who is no admin, revokes Bob's token `j`, which nobody revoked before. -/
theorem revocation_of_foreign_token :
    sampleClaims.isAdmin = false ∧ sampleClaims.userId = "alice" ∧
      ¬ Along step (TouchesOwnOnly fun _ => "bob") (init 0) [revokeFor 10] := by
  refine ⟨by decide, rfl, fun h => ?_⟩
  have := h.1 (by simp [sampleClaims, UserClaims.isAdmin]) "j" (by simp [sampleClaims]) 0 le_rfl
  revert this
  decide +kernel

end ZTG
