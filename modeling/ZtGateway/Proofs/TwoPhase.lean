import ZtGateway.Spec.Signals

/-! The two phases of `evaluateScore` as one sum. The decay adds one correction for all signals;
what it corrects is read off the list of phase 1, so each favourable decayable delta is there
twice, once as it was answered and once with the factor `k - 1`. -/

namespace ZTG

/-- an adjustment with a finite delta -/
structure FiniteAdjustment where
  source : String
  delta : ℚ
  reason : String
  decayable : Bool

namespace FiniteAdjustment

def toSignal (a : FiniteAdjustment) : SignalAdjustment :=
  ⟨a.source, .num a.delta, a.reason, a.decayable⟩

/-- a task of phase 1 as the service awaits it -/
def toTask (x : String × Except Err FiniteAdjustment) : String × Except Err SignalAdjustment :=
  (x.1, x.2.map toSignal)

/-- the delta after a decay by `k`, which only favourable ones undergo -/
def attenuated (k : ℚ) (a : FiniteAdjustment) : ℚ :=
  if a.decayable = true ∧ a.delta < 0 then k * a.delta else a.delta

/-- what a task of phase 1 counts as, thrown or not -/
def ofTask : String × Except Err FiniteAdjustment → FiniteAdjustment
  | (_, .ok a) => a
  | (source, .error _) => ⟨source, 1 / 10, source ++ "_fault", false⟩

theorem attenuated_anti (a : FiniteAdjustment) {k k' : ℚ} (h : k' ≤ k) :
    a.attenuated k ≤ a.attenuated k' := by
  unfold attenuated
  split_ifs with hdecays
  · exact mul_le_mul_of_nonpos_right h hdecays.2.le
  · exact le_rfl

end FiniteAdjustment

open FiniteAdjustment

def clamp01 (x : ℚ) : ℚ := min 1 (max 0 x)

theorem clamp01_mono {x y : ℚ} (h : x ≤ y) : clamp01 x ≤ clamp01 y :=
  min_le_min_left 1 (max_le_max_left 0 h)

theorem clamp01_nonneg (x : ℚ) : 0 ≤ clamp01 x := le_min zero_le_one (le_max_left 0 x)

theorem clamp01_le_one (x : ℚ) : clamp01 x ≤ 1 := min_le_left 1 _

/-- the factor of the decay, which is 1 if there is no row to be idle -/
def decayFactor (exp : ℚ → ℚ) (t : TrustTables) (cfg : TrustConfig) (ctx : TrustContext)
    (clock : ℕ) : ℚ :=
  match t.getSignalRow ctx with
  | none => 1
  | some row => TrustDecayProvider.factor exp cfg row clock

/-- any tasks in phase 1, and a decay that does not throw -/
def anyAnswers (exp : ℚ → ℚ) (t : TrustTables) (cfg : TrustConfig) (ctx : TrustContext)
    (clock : ℕ) (phase1 : List (String × Except Err FiniteAdjustment)) : SignalAnswers where
  phase1 := phase1.map toTask
  attenuate adjustments := .ok (TrustDecayProvider.attenuate exp t cfg ctx clock adjustments)

theorem settled_task (x : String × Except Err FiniteAdjustment) :
    TrustScoreService.settled .num x.1 (x.2.map toSignal) = (ofTask x).toSignal := by
  obtain ⟨name, r⟩ := x
  cases r with
  | ok a => rfl
  | error e => rfl

theorem foldl_delta (as : List FiniteAdjustment) (q : ℚ) :
    (as.map toSignal).foldl (fun s a => JsNum.add s a.delta) (.num q) =
      .num (q + (as.map (·.delta)).sum) := by
  induction as generalizing q with
  | nil => simp
  | cons a as ih =>
    have hstep : JsNum.add (.num q) a.toSignal.delta = .num (q + a.delta) := rfl
    rw [List.map_cons, List.foldl_cons, hstep, ih, List.map_cons, List.sum_cons, add_assoc]

/-- The filtered fold of `attenuate`. -/
theorem foldl_correction (k : ℚ) (as : List FiniteAdjustment) (q : ℚ) :
    ((as.map toSignal).filter fun a => a.decayable && a.delta.lt (.num 0)).foldl
        (fun sum a => JsNum.add sum (a.delta.scale (k - 1))) (.num q) =
      .num (q + (as.map fun a => a.attenuated k - a.delta).sum) := by
  induction as generalizing q with
  | nil => simp
  | cons a as ih =>
    rw [List.map_cons, List.map_cons, List.sum_cons, List.filter_cons]
    by_cases hdecays : a.decayable = true ∧ a.delta < 0
    · have htest : (a.toSignal.decayable && a.toSignal.delta.lt (.num 0)) = true := by
        simpa [toSignal, JsNum.num_lt] using hdecays
      have hstep : JsNum.add (.num q) (a.toSignal.delta.scale (k - 1)) =
          .num (q + a.delta * (k - 1)) := rfl
      rw [if_pos htest, List.foldl_cons, hstep, ih, attenuated, if_pos hdecays]
      ring_nf
    · have htest : ¬ (a.toSignal.decayable && a.toSignal.delta.lt (.num 0)) = true := by
        simpa [toSignal, JsNum.num_lt] using hdecays
      rw [if_neg htest, ih, attenuated, if_neg hdecays, sub_self, zero_add]

theorem attenuate_delta (exp : ℚ → ℚ) (t : TrustTables) (cfg : TrustConfig) (ctx : TrustContext)
    (clock : ℕ) (as : List FiniteAdjustment) :
    (TrustDecayProvider.attenuate exp t cfg ctx clock (as.map toSignal)).delta =
      .num ((as.map fun a => a.attenuated (decayFactor exp t cfg ctx clock) - a.delta).sum) := by
  unfold TrustDecayProvider.attenuate decayFactor
  cases t.getSignalRow ctx with
  | none =>
    -- a factor of 1 corrects nothing
    have hone : ∀ a : FiniteAdjustment, a.attenuated 1 - a.delta = 0 := by
      intro a
      simp [attenuated]
    simp [hone]
  | some row =>
    dsimp only
    rw [foldl_correction, zero_add]

/-- The score from what the decay answers. -/
theorem evaluateScore_of_correction {store : FingerprintStore} {now : ℕ} {ctx : TrustContext}
    (hterminal : (store.isTerminal now ctx.ja4h).1 = false)
    (phase1 : List (String × Except Err FiniteAdjustment))
    (attenuate : List SignalAdjustment → Except Err SignalAdjustment) {c : ℚ}
    (hc : (TrustScoreService.settled .num "trust_decay"
      (attenuate ((phase1.map ofTask).map toSignal))).delta = .num c) :
    (TrustScoreService.evaluateScore .num .add store now
        ⟨phase1.map toTask, attenuate⟩ ctx).1 =
      .num (clamp01 (1 / 2 + ((phase1.map fun x => (ofTask x).delta).sum + c))) := by
  have hphase1 : ∀ f : String × Except Err SignalAdjustment → SignalAdjustment,
      (∀ x, f x = TrustScoreService.settled .num x.1 x.2) →
        (phase1.map toTask).map f = (phase1.map ofTask).map toSignal := by
    intro f hf
    rw [List.map_map, List.map_map]
    exact List.map_congr_left fun x _ => (hf (toTask x)).trans (settled_task x)
  unfold TrustScoreService.evaluateScore
  rw [← Prod.eta (store.isTerminal now ctx.ja4h), hterminal]
  dsimp only
  rw [if_neg (by simp), hphase1 _ fun _ => rfl, List.foldl_append, foldl_delta, List.map_map]
  simp only [List.foldl_cons, List.foldl_nil, hc, JsNum.num_add, JsNum.num_max, JsNum.num_min,
    zero_add]
  rfl

/-- the sum of the deltas after the decay -/
def attenuatedSum (k : ℚ) (phase1 : List (String × Except Err FiniteAdjustment)) : ℚ :=
  (phase1.map fun x => (ofTask x).attenuated k).sum

theorem evaluateScore_attenuated {store : FingerprintStore} {now : ℕ} {ctx : TrustContext}
    (hterminal : (store.isTerminal now ctx.ja4h).1 = false) (exp : ℚ → ℚ) (t : TrustTables)
    (cfg : TrustConfig) (clock : ℕ) (phase1 : List (String × Except Err FiniteAdjustment)) :
    (TrustScoreService.evaluateScore .num .add store now
        (anyAnswers exp t cfg ctx clock phase1) ctx).1 =
      .num (clamp01 (1 / 2 + attenuatedSum (decayFactor exp t cfg ctx clock) phase1)) := by
  have hscore := evaluateScore_of_correction hterminal phase1
    (anyAnswers exp t cfg ctx clock phase1).attenuate
    (attenuate_delta exp t cfg ctx clock (phase1.map ofTask))
  refine hscore.trans ?_
  rw [List.map_map, ← List.sum_map_add]
  unfold attenuatedSum
  simp

theorem attenuatedSum_anti {k k' : ℚ} (h : k' ≤ k)
    (phase1 : List (String × Except Err FiniteAdjustment)) :
    attenuatedSum k phase1 ≤ attenuatedSum k' phase1 :=
  List.sum_le_sum fun x _ => (ofTask x).attenuated_anti h

theorem decayFactor_anti {exp : ℚ → ℚ} (hexp : Monotone exp) (t : TrustTables) {cfg : TrustConfig}
    (hlife : 0 < cfg.decayHalfLifeMs) (ctx : TrustContext) {clock clock' : ℕ}
    (h : clock ≤ clock') : decayFactor exp t cfg ctx clock' ≤ decayFactor exp t cfg ctx clock := by
  unfold decayFactor
  cases t.getSignalRow ctx with
  | none => exact le_rfl
  | some row =>
    refine hexp (div_le_div_of_nonneg_right ?_ hlife.le)
    have hidle : max 0 ((clock : ℤ) - row.lastSeenAt) ≤ max 0 ((clock' : ℤ) - row.lastSeenAt) :=
      max_le_max_left 0 (by omega)
    exact neg_le_neg (by exact_mod_cast hidle)

/-- For any phase 1 and any factor: the score is that of the attenuated deltas, clamped; it does
not depend on the order of the signals, and it does not fall when the factor does, so not when
the same row is idle for longer. -/
theorem two_phase_eq_one_phase (exp : ℚ → ℚ) (t : TrustTables) (cfg : TrustConfig)
    (ctx : TrustContext) (store : FingerprintStore) (now : ℕ)
    (hterminal : (store.isTerminal now ctx.ja4h).1 = false)
    (phase1 : List (String × Except Err FiniteAdjustment)) (clock : ℕ) :
    let score := fun phase1 clock => (TrustScoreService.evaluateScore .num .add store now
      (anyAnswers exp t cfg ctx clock phase1) ctx).1
    let k := decayFactor exp t cfg ctx
    (∃ q, score phase1 clock = .num q ∧ q = clamp01 (1 / 2 + attenuatedSum (k clock) phase1) ∧
        0 ≤ q ∧ q ≤ 1) ∧
      (∀ phase1', phase1'.Perm phase1 → score phase1' clock = score phase1 clock) ∧
      (∀ clock', k clock' ≤ k clock →
        (score phase1 clock).le (score phase1 clock') = true) ∧
      (Monotone exp → 0 < cfg.decayHalfLifeMs → ∀ clock', clock ≤ clock' →
        (score phase1 clock).le (score phase1 clock') = true) := by
  intro score k
  have hscore : ∀ phase1 clock,
      score phase1 clock = .num (clamp01 (1 / 2 + attenuatedSum (k clock) phase1)) :=
    fun phase1 clock => evaluateScore_attenuated hterminal exp t cfg clock phase1
  have hfactor : ∀ clock', k clock' ≤ k clock →
      (score phase1 clock).le (score phase1 clock') = true := by
    intro clock' hk
    rw [hscore, hscore, JsNum.num_le]
    exact clamp01_mono (add_le_add_right (attenuatedSum_anti hk phase1) _)
  refine ⟨⟨_, hscore phase1 clock, rfl, clamp01_nonneg _, clamp01_le_one _⟩, ?_, hfactor, ?_⟩
  · intro phase1' hperm
    rw [hscore, hscore]
    unfold attenuatedSum
    rw [(hperm.map _).sum_eq]
  · intro hexp hlife clock' hle
    exact hfactor clock' (decayFactor_anti hexp t hlife ctx hle)

/-- the defaults of `validationSchema` -/
def defaultTrustConfig : TrustConfig :=
  { knownThreshold := 3, decayHalfLifeMs := 604800000, anomalyWarmupN := 20,
    frequencyWindowMs := 60000, frequencyNormalMax := 30 }

def laptopContext : TrustContext := ⟨"alice", "laptop", "10.0.0.7", "ge11nn05"⟩

/-- five requests allowed, the last at 5000 -/
def sampleTables : TrustTables where
  signals := [(⟨"alice", "laptop", "10.0.0.7"⟩,
    { ja4h := some "ge11nn05", firstSeenAt := 1000, lastSeenAt := 5000, allowCount := 5,
      hourHistogram := 5 :: List.replicate 23 0, rateEma := 48, rateEmaVar := 720,
      anomalyObservations := 5 })]
  activity := []
  keys := by decide
  variance := by decide +kernel

/-- A known device and a fault, the moment after the last request. -/
theorem two_phase_eq_one_phase_fresh :
    let phase1 := [("device_reputation",
        Except.ok (⟨"device_reputation", -15 / 100, "device_known", true⟩ : FiniteAdjustment)),
      ("ip_reputation", .error (.error "timeout"))]
    (TrustScoreService.evaluateScore .num .add {} 0
        (anyAnswers (fun _ => 1) sampleTables defaultTrustConfig laptopContext 5000 phase1)
        laptopContext).1 = .num (9 / 20) := by
  intro phase1
  obtain ⟨q, hscore, hq, -⟩ := (two_phase_eq_one_phase (fun _ => 1) sampleTables
    defaultTrustConfig laptopContext {} 0 (by decide) phase1 5000).1
  refine hscore.trans (congrArg JsNum.num (hq.trans ?_))
  decide +kernel

end ZTG
