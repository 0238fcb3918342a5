import ZtGateway.Spec.Policy
import ZtGateway.Proofs.ThreatReads

/-! One decision of `PolicyEvaluatorService.evaluate`. The loop over the subjects is a search
for the first answer that is not "no"; the decision is then a comparison of the score with the
thresholds of the level, which only fall as the level rises. The two thresholds are read one
after the other, and each read may take rungs of the cooldown ladder. -/

namespace ZTG

/-- ALLOW < CHALLENGE < DENY -/
def Decision.rank : Decision → ℕ
  | .allow => 0
  | .challenge => 1
  | .deny => 2

theorem Decision.rank_le_deny (d : Decision) : d.rank ≤ Decision.deny.rank := by
  cases d <;> decide

/-- the level that a reading of the clock at `now` finds -/
def ThreatState.levelAt (cfg : PolicyConfig) (st : ThreatState) (now : ℕ) : ThreatLevel :=
  (st.maybeCooldown cfg now).effectiveLevel

theorem ValidPolicyConfig.challengeAt_le (cfg : ValidPolicyConfig) {a b : ThreatLevel}
    (h : a.order ≤ b.order) : cfg.challengeAt b ≤ cfg.challengeAt a := by
  rcases h.lt_or_eq with hlt | heq
  · exact (cfg.challengeAt_lt hlt).le
  · rw [ThreatLevel.order_inj heq]

theorem ValidPolicyConfig.denyAt_le (cfg : ValidPolicyConfig) {a b : ThreatLevel}
    (h : a.order ≤ b.order) : cfg.denyAt b ≤ cfg.denyAt a := by
  rcases h.lt_or_eq with hlt | heq
  · exact (cfg.denyAt_lt hlt).le
  · rw [ThreatLevel.order_inj heq]

/-- A level is known by its challenge threshold. -/
theorem ValidPolicyConfig.challengeAt_inj (cfg : ValidPolicyConfig) {a b : ThreatLevel}
    (h : cfg.challengeAt a = cfg.challengeAt b) : a = b := by
  apply ThreatLevel.order_inj
  rcases Nat.lt_trichotomy a.order b.order with hlt | heq | hgt
  · exact absurd h (cfg.challengeAt_lt hlt).ne'
  · exact heq
  · exact absurd h (cfg.challengeAt_lt hgt).ne

theorem ValidPolicyConfig.denyAt_inj (cfg : ValidPolicyConfig) {a b : ThreatLevel}
    (h : cfg.denyAt a = cfg.denyAt b) : a = b := by
  apply ThreatLevel.order_inj
  rcases Nat.lt_trichotomy a.order b.order with hlt | heq | hgt
  · exact absurd h (cfg.denyAt_lt hlt).ne'
  · exact heq
  · exact absurd h (cfg.denyAt_lt hgt).ne

section Cooldown

variable {cfg : PolicyConfig} {st : ThreatState} {n₁ n₂ now : ℕ}

/-- What a read that finds the gate open leaves. -/
theorem maybeCooldown_spec (hc : 0 < cfg.threatCooldownMs)
    (h : ThreatState.GateOpen cfg st now) :
    let st' := st.maybeCooldown cfg now
    ThreatState.Untouched st st' ∧
      st'.level.order = st.level.order - (now - st.lastTransitionAt) / cfg.threatCooldownMs ∧
      st'.lastTransitionAt =
        if now < st.lastTransitionAt + cfg.threatCooldownMs ∨ st.level = .normal then
          st.lastTransitionAt
        else now := by
  intro st'
  have hst' : st' = ThreatState.coolDown now _ st := ThreatState.maybeCooldown_of_open h
  obtain ⟨hsame, horder, htime⟩ := ThreatState.coolDown_spec now
    ((now - st.lastTransitionAt) / cfg.threatCooldownMs) st
  rw [hst']
  refine ⟨hsame, horder, htime.trans ?_⟩
  have hzero : (now - st.lastTransitionAt) / cfg.threatCooldownMs = 0 ↔
      now < st.lastTransitionAt + cfg.threatCooldownMs := by
    rw [Nat.div_eq_zero_iff_lt hc]
    omega
  simp only [hzero]

/-- The read that follows at the same time takes no rung. -/
theorem rests_after (hc : 0 < cfg.threatCooldownMs) :
    (st.maybeCooldown cfg now).Rests cfg now := by
  by_cases hopen : ThreatState.GateOpen cfg st now
  · obtain ⟨-, horder, htime⟩ := maybeCooldown_spec hc hopen
    by_cases hstay : now < st.lastTransitionAt + cfg.threatCooldownMs ∨ st.level = .normal
    · rw [if_pos hstay] at htime
      rcases hstay with hearly | hnormal
      · exact .inr (.inr (by rw [htime]; exact hearly))
      · refine .inr (.inl (ThreatLevel.order_inj ?_))
        rw [horder, hnormal]
        simp [ThreatLevel.order]
    · rw [if_neg hstay] at htime
      exact .inr (.inr (by omega))
  · rw [ThreatState.maybeCooldown_of_closed hopen]
    exact .inl hopen

theorem maybeCooldown_idem (hc : 0 < cfg.threatCooldownMs) :
    (st.maybeCooldown cfg now).maybeCooldown cfg now = st.maybeCooldown cfg now :=
  maybeCooldown_of_rests (rests_after hc)

end Cooldown

namespace PolicyEvaluatorService

variable {enforce : Enforce} {obj act : String}

/-- what the enforcer says to each subject; the loop stops at the first yes or throw -/
def answers (enforce : Enforce) (obj act : String) : ℕ → List String → List (Except Err Bool)
  | _, [] => []
  | i, sub :: rest => enforce i sub obj act :: answers enforce obj act (i + 1) rest

/-- Some subject is allowed, and nothing throws before. -/
def AllowFirst (as : List (Except Err Bool)) : Prop :=
  ∃ before after, as = before ++ .ok true :: after ∧ ∀ e, .error e ∉ before

/-- Something throws, and no subject is allowed before. -/
def ThrowFirst (as : List (Except Err Bool)) : Prop :=
  ∃ before e after, as = before ++ .error e :: after ∧ .ok true ∉ before

theorem allowFirst_cons {a : Except Err Bool} {as : List (Except Err Bool)} :
    AllowFirst (a :: as) ↔ a = .ok true ∨ a = .ok false ∧ AllowFirst as := by
  constructor
  · rintro ⟨before, after, heq, hquiet⟩
    cases before with
    | nil => exact .inl (List.cons.inj heq).1
    | cons b before =>
      obtain ⟨rfl, rfl⟩ := List.cons.inj heq
      match a with
      | .error e => exact absurd List.mem_cons_self (hquiet e)
      | .ok true => exact .inl rfl
      | .ok false =>
        exact .inr ⟨rfl, before, after, rfl, fun e he => hquiet e (List.mem_cons_of_mem _ he)⟩
  · rintro (rfl | ⟨rfl, before, after, rfl, hquiet⟩)
    · exact ⟨[], as, rfl, by simp⟩
    · exact ⟨.ok false :: before, after, rfl, by simpa using hquiet⟩

theorem throwFirst_cons {a : Except Err Bool} {as : List (Except Err Bool)} :
    ThrowFirst (a :: as) ↔ (∃ e, a = .error e) ∨ a = .ok false ∧ ThrowFirst as := by
  constructor
  · rintro ⟨before, e, after, heq, hno⟩
    cases before with
    | nil => exact .inl ⟨e, (List.cons.inj heq).1⟩
    | cons b before =>
      obtain ⟨rfl, rfl⟩ := List.cons.inj heq
      match a with
      | .error e => exact .inl ⟨e, rfl⟩
      | .ok true => exact absurd List.mem_cons_self hno
      | .ok false =>
        exact .inr ⟨rfl, before, e, after, rfl, fun hyes => hno (List.mem_cons_of_mem _ hyes)⟩
  · rintro (⟨e, rfl⟩ | ⟨rfl, before, e, after, rfl, hno⟩)
    · exact ⟨[], e, as, rfl, by simp⟩
    · exact ⟨.ok false :: before, e, after, rfl, by simpa using hno⟩

theorem matchSubject_error_iff (i : ℕ) (subs : List String) :
    (∃ e, matchSubject enforce obj act i subs = .error e) ↔
      ThrowFirst (answers enforce obj act i subs) := by
  induction subs generalizing i with
  | nil => simp [matchSubject, answers, ThrowFirst]
  | cons sub rest ih =>
    unfold matchSubject answers
    rw [throwFirst_cons, ← ih (i + 1)]
    match enforce i sub obj act with
    | .error e => simp
    | .ok true => simp
    | .ok false => simp

theorem matchSubject_some_iff (i : ℕ) (subs : List String) :
    (∃ sub, matchSubject enforce obj act i subs = .ok (some sub)) ↔
      AllowFirst (answers enforce obj act i subs) := by
  induction subs generalizing i with
  | nil => simp [matchSubject, answers, AllowFirst]
  | cons sub rest ih =>
    unfold matchSubject answers
    rw [allowFirst_cons, ← ih (i + 1)]
    match enforce i sub obj act with
    | .error e => simp
    | .ok true => simp
    | .ok false => simp

/-- the pair of thresholds that one call reads -/
def thresholds (cfg : PolicyConfig) (threat : ThreatState) (t : Readings) : ℚ × ℚ :=
  let c := threat.currentChallengeThreshold cfg t.challenge
  (c.1, (c.2.currentDenyThreshold cfg t.deny).1)

variable {cfg : PolicyConfig} {evaluateScore : TrustContext → JsNum} {threat : ThreatState}
  {t : Readings} {req : Request} {user : UserClaims}

/-- The call for an authenticated request, by what the loop found. -/
theorem evaluate_of_user (huser : req.user = some user) :
    let r := evaluate cfg evaluateScore enforce threat t req
    let score := scoreOf evaluateScore req user
    let emitDeny := denyPayload req user (policyObject req) (normalizeAction req.method) t.ts
    r.decision = (match matchSubject enforce (policyObject req) (normalizeAction req.method) 0
        (buildSubjects user) with
      | .error _ => ⟨.deny, "policy_error", score, none⟩
      | .ok sub =>
        mapScore score (thresholds cfg threat t).1 (thresholds cfg threat t).2 sub) ∧
    r.decisions = [r.decision.decision] ∧
    r.emitted = if r.decision.decision = .deny then [emitDeny] else [] := by
  unfold evaluate
  rw [huser]
  dsimp only
  cases matchSubject enforce (policyObject req) (normalizeAction req.method) 0
    (buildSubjects user) with
  | error e => exact ⟨rfl, rfl, rfl⟩
  | ok sub => exact ⟨rfl, rfl, rfl⟩

/-- A higher score and lower thresholds never move the decision towards ALLOW. -/
theorem mapScore_rank_le {score score' : JsNum} {challengeT challengeT' denyT denyT' : ℚ}
    (hscore : score.le score' = true) (hchallenge : challengeT' ≤ challengeT)
    (hdeny : denyT' ≤ denyT) (sub : Option String) :
    (mapScore score challengeT denyT sub).decision.rank ≤
      (mapScore score' challengeT' denyT' sub).decision.rank := by
  have hc : JsNum.le (.num challengeT') (.num challengeT) = true := decide_eq_true hchallenge
  have hd : JsNum.le (.num denyT') (.num denyT) = true := decide_eq_true hdeny
  cases sub with
  | none => exact le_rfl
  | some sub =>
    unfold mapScore
    dsimp only
    by_cases hdenied' : JsNum.le (.num denyT') score' = true
    · rw [if_pos hdenied']
      exact Decision.rank_le_deny _
    · have hdenied : ¬ JsNum.le (.num denyT) score = true := fun h =>
        hdenied' (JsNum.le_trans (JsNum.le_trans hd h) hscore)
      rw [if_neg hdenied', if_neg hdenied]
      by_cases hallow' : JsNum.lt score' (.num challengeT') = true
      · have hallow : JsNum.lt score (.num challengeT) = true :=
          JsNum.lt_of_lt_of_le (JsNum.lt_of_le_of_lt hscore hallow') hc
        rw [if_pos hallow', if_pos hallow]
      · rw [if_neg hallow']
        split_ifs
        · exact Nat.zero_le _
        · exact le_rfl

/-- What the mapping says of an allowed request. -/
theorem mapScore_allowed (score : JsNum) (challengeT denyT : ℚ) (sub : String) :
    let d := (mapScore score challengeT denyT (some sub)).decision
    (d = .deny ↔ JsNum.le (.num denyT) score = true) ∧
      (d ≠ .deny → (d = .allow ↔ JsNum.lt score (.num challengeT) = true)) := by
  unfold mapScore
  dsimp only
  split_ifs with hdeny hallow
  · simp [hdeny]
  · simp [hdeny, hallow]
  · simp [hdeny, hallow]

/-- With the clock standing still, the pair is that of one level. -/
theorem thresholds_const (hc : 0 < cfg.threatCooldownMs) (now ts : ℕ) :
    thresholds cfg threat ⟨now, now, ts⟩ =
      (cfg.challengeAt (threat.levelAt cfg now), cfg.denyAt (threat.levelAt cfg now)) := by
  unfold thresholds ThreatState.currentChallengeThreshold ThreatState.currentDenyThreshold
  dsimp only
  rw [maybeCooldown_idem hc]
  rfl

/-- The decision for an authenticated request under a validated configuration, with the clock
standing still: ALLOW and CHALLENGE only for a subject that was allowed before any throw, a throw
first is DENY, an allowed request is decided by the thresholds of the level, a higher score or
level never moves the decision towards ALLOW, and one counter and one event account for it. -/
theorem evaluate_fails_closed (cfg : ValidPolicyConfig) (evaluateScore : TrustContext → JsNum)
    (enforce : Enforce) (threat : ThreatState) (now : ℕ) (req : Request) (user : UserClaims)
    (huser : req.user = some user) :
    let t : Readings := ⟨now, now, now⟩
    let r := evaluate cfg.toPolicyConfig evaluateScore enforce threat t req
    let obj := policyObject req
    let act := normalizeAction req.method
    let as := answers enforce obj act 0 (buildSubjects user)
    let level := threat.levelAt cfg.toPolicyConfig now
    let score := scoreOf evaluateScore req user
    (r.decision.decision ≠ .deny → AllowFirst as) ∧
    (ThrowFirst as → r.decision.decision = .deny ∧ r.decision.reason = "policy_error") ∧
    (AllowFirst as →
      (r.decision.decision = .deny ↔ JsNum.le (.num (cfg.denyAt level)) score = true) ∧
      (r.decision.decision ≠ .deny →
        (r.decision.decision = .allow ↔ JsNum.lt score (.num (cfg.challengeAt level)) = true))) ∧
    (∀ evaluateScore' trustScore' threat',
      let req' := { req with trustScore := trustScore' }
      let r' := evaluate cfg.toPolicyConfig evaluateScore' enforce threat' t req'
      JsNum.le score (scoreOf evaluateScore' req' user) = true →
      level.order ≤ (threat'.levelAt cfg.toPolicyConfig now).order →
      r.decision.decision.rank ≤ r'.decision.decision.rank) ∧
    r.decisions = [r.decision.decision] ∧
    r.emitted = if r.decision.decision = .deny then [denyPayload req user obj act now] else [] := by
  intro t r obj act as level score
  obtain ⟨hdecision, hcounter, hevent⟩ :=
    @evaluate_of_user enforce cfg.toPolicyConfig evaluateScore threat t req user huser
  rw [thresholds_const cfg.cooldown_pos] at hdecision
  have herror := @matchSubject_error_iff enforce obj act 0 (buildSubjects user)
  have hsome := @matchSubject_some_iff enforce obj act 0 (buildSubjects user)
  refine ⟨fun hne => ?_, fun hthrow => ?_, fun hallow => ?_, ?_, hcounter, hevent⟩
  · rw [← hsome]
    cases hmatch : matchSubject enforce obj act 0 (buildSubjects user) with
    | error e =>
      rw [hmatch] at hdecision
      exact absurd (congrArg PolicyDecision.decision hdecision) hne
    | ok sub =>
      cases sub with
      | none =>
        rw [hmatch] at hdecision
        exact absurd (congrArg PolicyDecision.decision hdecision) hne
      | some sub => exact ⟨sub, rfl⟩
  · obtain ⟨e, hmatch⟩ := herror.mpr hthrow
    rw [hmatch] at hdecision
    exact ⟨congrArg PolicyDecision.decision hdecision, congrArg PolicyDecision.reason hdecision⟩
  · obtain ⟨sub, hmatch⟩ := hsome.mpr hallow
    rw [hmatch] at hdecision
    have hmap := mapScore_allowed score (cfg.challengeAt level) (cfg.denyAt level) sub
    dsimp only at hmap hdecision
    rw [← hdecision] at hmap
    exact hmap
  · intro evaluateScore' trustScore' threat' req' r' hscore hlevel
    have huser' : req'.user = some user := huser
    obtain ⟨hdecision', -, -⟩ :=
      @evaluate_of_user enforce cfg.toPolicyConfig evaluateScore' threat' t req' user huser'
    rw [thresholds_const cfg.cooldown_pos] at hdecision'
    -- the object and the action do not depend on the score
    have hsame : matchSubject enforce (policyObject req') (normalizeAction req'.method) 0
        (buildSubjects user) = matchSubject enforce obj act 0 (buildSubjects user) := rfl
    rw [hsame] at hdecision'
    cases hmatch : matchSubject enforce obj act 0 (buildSubjects user) with
    | error e =>
      rw [hmatch] at hdecision'
      have hdeny : r'.decision.decision = .deny := congrArg PolicyDecision.decision hdecision'
      rw [hdeny]
      exact Decision.rank_le_deny _
    | ok sub =>
      rw [hmatch] at hdecision hdecision'
      have hrank := mapScore_rank_le hscore (cfg.challengeAt_le hlevel) (cfg.denyAt_le hlevel) sub
      dsimp only at hdecision hdecision'
      rw [← hdecision, ← hdecision'] at hrank
      exact hrank

/-- alice with two roles, and a score in the challenge band of every level -/
def aliceRequest : Request :=
  { method := "GET", originalUrl := some "/users/1", trustScore := some (.num (7 / 20)),
    user := some { userId := "alice", roles := ["user", "ops"], jti := "j", exp := 10,
                   deviceId := "d" } }

/-- The second subject is allowed: CHALLENGE when the level is Elevated, and not ALLOW at a level
above it. -/
theorem evaluate_fails_closed_elevated :
    let enforce : Enforce := fun i _ _ _ => .ok (i == 1)
    let elevated := (ThreatState.start 0).record quickCooldown.toPolicyConfig 0 .policyDeny
    let critical := elevated.record quickCooldown.toPolicyConfig 0 .policyDeny
    let run := fun threat => evaluate quickCooldown.toPolicyConfig (fun _ => .num 0) enforce threat
      ⟨5, 5, 5⟩ aliceRequest
    (run elevated).decision.decision = .challenge ∧
      (run elevated).decision.decision.rank ≤ (run critical).decision.decision.rank := by
  refine ⟨by decide +kernel, ?_⟩
  exact (evaluate_fails_closed quickCooldown (fun _ => .num 0) (fun i _ _ _ => .ok (i == 1))
    ((ThreatState.start 0).record quickCooldown.toPolicyConfig 0 .policyDeny) 5 aliceRequest _
    rfl).2.2.2.1 (fun _ => .num 0) (some (.num (7 / 20))) _ (by decide +kernel) (by decide +kernel)

/-- The second read takes a rung that the first did not: the gate opens or a window ends between
the two, or the first read took one rung from Critical and the next one is due already. -/
def CoolsBetween (cfg : PolicyConfig) (st : ThreatState) (n₁ n₂ : ℕ) : Prop :=
  ThreatState.GateOpen cfg st n₂ ∧
    ((st.level ≠ .normal ∧ st.lastTransitionAt + cfg.threatCooldownMs ≤ n₂ ∧
        (n₁ < st.lastSignalAt + cfg.threatCooldownMs ∨
          n₁ < st.lastTransitionAt + cfg.threatCooldownMs)) ∨
      (st.level = .critical ∧ st.lastSignalAt + cfg.threatCooldownMs ≤ n₁ ∧
        st.lastTransitionAt + cfg.threatCooldownMs ≤ n₁ ∧
        n₁ < st.lastTransitionAt + 2 * cfg.threatCooldownMs ∧ n₁ + cfg.threatCooldownMs ≤ n₂))

theorem rests_iff {n₁ n₂ : ℕ} (hc : 0 < cfg.threatCooldownMs) :
    (threat.maybeCooldown cfg n₁).Rests cfg n₂ ↔ ¬ CoolsBetween cfg threat n₁ n₂ := by
  have hsame := ThreatState.maybeCooldown_untouched cfg threat n₁
  have hgate : ThreatState.GateOpen cfg (threat.maybeCooldown cfg n₁) n₂ ↔
      ThreatState.GateOpen cfg threat n₂ := by
    unfold ThreatState.GateOpen
    rw [hsame.manualOverride, hsame.lastSignalAt]
  unfold ThreatState.Rests CoolsBetween
  rw [hgate]
  by_cases hopen₂ : ThreatState.GateOpen cfg threat n₂
  swap
  · exact iff_of_true (.inl hopen₂) fun h => hopen₂ h.1
  simp only [hopen₂, not_true_eq_false, false_or, true_and]
  by_cases hopen₁ : ThreatState.GateOpen cfg threat n₁
  · obtain ⟨-, horder, htime⟩ := maybeCooldown_spec hc hopen₁
    have hidle := hopen₁.2
    by_cases hstay : n₁ < threat.lastTransitionAt + cfg.threatCooldownMs ∨ threat.level = .normal
    · -- the first read takes nothing
      have hfirst : threat.maybeCooldown cfg n₁ = threat :=
        maybeCooldown_of_rests (.inr (hstay.symm))
      rw [hfirst]
      rcases hstay with hearly | hnormal
      · simp only [ne_eq, hearly, or_true, and_true]
        by_cases hnormal : threat.level = .normal
        · simp [hnormal]
        · simp only [hnormal, false_or, not_false_eq_true, true_and]
          omega
      · simp [hnormal]
    · rw [if_neg hstay] at htime
      rw [htime]
      push Not at hstay
      obtain ⟨hdue, hne⟩ := hstay
      have hnormal : (threat.maybeCooldown cfg n₁).level = .normal ↔
          threat.level = .critical → threat.lastTransitionAt + 2 * cfg.threatCooldownMs ≤ n₁ := by
        have hone : 1 ≤ (n₁ - threat.lastTransitionAt) / cfg.threatCooldownMs :=
          (Nat.one_le_div_iff hc).mpr (by omega)
        have htwo : 2 ≤ (n₁ - threat.lastTransitionAt) / cfg.threatCooldownMs ↔
            threat.lastTransitionAt + 2 * cfg.threatCooldownMs ≤ n₁ := by
          rw [Nat.le_div_iff_mul_le hc]
          omega
        have hzero : (threat.maybeCooldown cfg n₁).level = .normal ↔
            (threat.maybeCooldown cfg n₁).level.order = 0 :=
          ⟨fun h => by rw [h]; rfl, fun h => ThreatLevel.order_inj h⟩
        rw [hzero, horder, ← htwo]
        cases hl : threat.level with
        | normal => exact absurd hl hne
        | elevated => simp [ThreatLevel.order]; omega
        | critical => simp [ThreatLevel.order]; omega
      rw [hnormal]
      by_cases hcritical : threat.level = .critical
      · simp [hcritical]
        omega
      · simp [hcritical]
        omega
  · rw [ThreatState.maybeCooldown_of_closed hopen₁]
    have hearly : n₁ < threat.lastSignalAt + cfg.threatCooldownMs :=
      not_le.mp fun hle => hopen₁ ⟨hopen₂.1, hle⟩
    by_cases hnormal : threat.level = .normal
    · simp [hnormal]
    · simp only [ne_eq, hnormal, false_or, not_false_eq_true, true_and, hearly, true_or, and_true]
      omega

/-- A read that does not rest takes a rung. -/
theorem level_lt_of_not_rests {st : ThreatState} {now : ℕ} (hc : 0 < cfg.threatCooldownMs)
    (h : ¬ st.Rests cfg now) : (st.levelAt cfg now).order < st.effectiveLevel.order := by
  have hopen : ThreatState.GateOpen cfg st now := by_contra fun hclosed => h (.inl hclosed)
  obtain ⟨hsame, -, -⟩ := maybeCooldown_spec hc hopen
  unfold ThreatState.levelAt ThreatState.effectiveLevel
  rw [hsame.manualOverride, hopen.1]
  exact maybeCooldown_lower hc h

/-- In every state a validated service can reach, and for every two readings that do not go back:
a call that finds what the enforcer says decides by the pair of thresholds it read, and this is
the pair of one level exactly when no rung falls between the two reads. -/
theorem thresholds_of_one_level (cfg : ValidPolicyConfig) (t₀ : ℕ) (ops : List ThreatOp)
    (dt₁ dt₂ dt₃ : ℕ) (evaluateScore : TrustContext → JsNum) (enforce : Enforce) (req : Request)
    (user : UserClaims) (sub : Option String) (huser : req.user = some user)
    (hmatch : matchSubject enforce (policyObject req) (normalizeAction req.method) 0
      (buildSubjects user) = .ok sub) :
    let w := runSteps (ThreatWorld.step cfg.toPolicyConfig) (.start t₀) ops
    let n₁ := w.now + dt₁
    let n₂ := n₁ + dt₂
    let t : Readings := ⟨n₁, n₂, n₂ + dt₃⟩
    let pair := thresholds cfg.toPolicyConfig w.svc t
    (evaluate cfg.toPolicyConfig evaluateScore enforce w.svc t req).decision =
        mapScore (scoreOf evaluateScore req user) pair.1 pair.2 sub ∧
      ((∃ level, pair = (cfg.challengeAt level, cfg.denyAt level)) ↔
        ¬ CoolsBetween cfg.toPolicyConfig w.svc n₁ n₂) := by
  intro w n₁ n₂ t pair
  have hc := cfg.cooldown_pos
  constructor
  · have hdecision := (@evaluate_of_user enforce cfg.toPolicyConfig evaluateScore w.svc t req user
      huser).1
    rw [hmatch] at hdecision
    exact hdecision
  have hpair : pair = (cfg.challengeAt (w.svc.levelAt cfg.toPolicyConfig n₁),
      cfg.denyAt ((w.svc.maybeCooldown cfg.toPolicyConfig n₁).levelAt cfg.toPolicyConfig n₂)) := rfl
  rw [← rests_iff hc, hpair]
  constructor
  · rintro ⟨level, hlevel⟩
    obtain ⟨hchallenge, hdeny⟩ := Prod.mk.inj hlevel
    by_contra hrests
    have hlt := level_lt_of_not_rests hc hrests
    rw [cfg.denyAt_inj hdeny, ← cfg.challengeAt_inj hchallenge] at hlt
    exact lt_irrefl _ hlt
  · intro hrests
    refine ⟨w.svc.levelAt cfg.toPolicyConfig n₁, ?_⟩
    have hsecond : (w.svc.maybeCooldown cfg.toPolicyConfig n₁).levelAt cfg.toPolicyConfig n₂ =
        w.svc.levelAt cfg.toPolicyConfig n₁ := by
      unfold ThreatState.levelAt
      rw [maybeCooldown_of_rests hrests]
    rw [hsecond]

/-- Critical since 0, read at 500 and 600. -/
theorem thresholds_of_one_level_early :
    let cfg := quickCooldown.toPolicyConfig
    let w := runSteps (ThreatWorld.step cfg) (.start 0)
      [.signal 0 .policyDeny, .signal 0 .policyDeny]
    ∃ level, thresholds cfg w.svc ⟨w.now + 500, w.now + 500 + 100, w.now + 500 + 100 + 0⟩ =
      (cfg.challengeAt level, cfg.denyAt level) := by
  refine (thresholds_of_one_level quickCooldown 0 [.signal 0 .policyDeny, .signal 0 .policyDeny]
    500 100 0 (fun _ => .num 0) (fun _ _ _ _ => .ok true) aliceRequest _ (some "user:alice") rfl
    (by decide +kernel)).2.mpr ?_
  rintro ⟨⟨-, hidle⟩, -⟩
  exact absurd hidle (by decide +kernel)

/-- Critical since 0, so that the first window ends at 1000. The call reads the challenge threshold
at 999, when the level is Critical, and the deny threshold at 1000, when it is Elevated. -/
theorem thresholds_of_two_levels :
    let cfg := quickCooldown.toPolicyConfig
    let w := runSteps (ThreatWorld.step cfg) (.start 0)
      [.signal 0 .policyDeny, .signal 0 .policyDeny]
    let t : Readings := ⟨999, 1000, 1000⟩
    (w.now = 0 ∧ thresholds cfg w.svc t = (1 / 5, 3 / 5) ∧
      (evaluate cfg (fun _ => .num 0) (fun _ _ _ _ => .ok true) w.svc t aliceRequest).decision =
        mapScore (.num (7 / 20)) (1 / 5) (3 / 5) (some "user:alice")) ∧
      ∀ level, thresholds cfg w.svc t ≠ (cfg.challengeAt level, cfg.denyAt level) := by
  refine ⟨by decide +kernel, fun level => ?_⟩
  cases level with
  | normal => decide +kernel
  | elevated => decide +kernel
  | critical => decide +kernel

end PolicyEvaluatorService

end ZTG
