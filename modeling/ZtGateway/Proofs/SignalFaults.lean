import ZtGateway.Proofs.TwoPhase

/-! What a fault does to the score. Each signal that throws counts as 0.1 in its place, which is
more than a favourable answer and less than most unfavourable ones. -/

namespace ZTG

open FiniteAdjustment

variable {exp sqrt : ℚ → ℚ} {t : TrustTables} {cfg : TrustConfig} {ctx : TrustContext}
  {clock : Signal → ℕ} {throws : Signal → Option Err} {store : FingerprintStore} {now : ℕ}

/-- the signals of phase 1, in order -/
def phase1Signals : List Signal :=
  [.deviceReputation, .ipReputation, .requestFrequency, .ja4hDrift, .behaviorAnomaly]

def anomaly (sqrt : ℚ → ℚ) (t : TrustTables) (cfg : TrustConfig) (ctx : TrustContext) (now : ℕ) :
    ℚ :=
  match BehaviorAnomalyProvider.warm t cfg ctx with
  | none => 0
  | some row => min (4 / 10) (max 0 (BehaviorAnomalyProvider.zHour sqrt row now +
      BehaviorAnomalyProvider.zRate sqrt row now))

/-- what a signal of phase 1 adds to the score, with the reputations scaled by `k` -/
def found (sqrt : ℚ → ℚ) (t : TrustTables) (cfg : TrustConfig) (ctx : TrustContext)
    (clock : Signal → ℕ) (k : ℚ) : Signal → ℚ
  | .deviceReputation =>
    if cfg.knownThreshold ≤ t.countAllowsForUserDeviceIp ctx then k * (-15 / 100) else 15 / 100
  | .ipReputation =>
    if cfg.knownThreshold ≤ t.sumAllowsForUserIp ctx then k * (-15 / 100) else 15 / 100
  | .requestFrequency =>
    if cfg.frequencyNormalMax < t.countActivitySince ctx.userId
        (dateOf (clock .requestFrequency - cfg.frequencyWindowMs)) then 2 / 10
    else -1 / 10
  | .ja4hDrift => if Ja4hDriftProvider.drifted t ctx then 3 / 10 else -5 / 100
  | .behaviorAnomaly => anomaly sqrt t cfg ctx (clock .behaviorAnomaly)
  | .trustDecay => 0

/-- the factor that the decay still applies -/
def appliedFactor (throws : Signal → Option Err) (k : ℚ) : ℚ :=
  if (throws .trustDecay).isSome then 1 else k

/-- what the signals that throw would have added -/
def missed (sqrt : ℚ → ℚ) (t : TrustTables) (cfg : TrustConfig) (ctx : TrustContext)
    (clock : Signal → ℕ) (throws : Signal → Option Err) (k : ℚ) : ℚ :=
  (phase1Signals.map fun s => if (throws s).isSome then
      found sqrt t cfg ctx clock (appliedFactor throws k) s else 0).sum +
    if (throws .trustDecay).isSome then
      (phase1Signals.map fun s => found sqrt t cfg ctx clock k s -
        found sqrt t cfg ctx clock 1 s).sum
    else 0

/-- what the other signals add -/
def remaining (sqrt : ℚ → ℚ) (t : TrustTables) (cfg : TrustConfig) (ctx : TrustContext)
    (clock : Signal → ℕ) (throws : Signal → Option Err) (k : ℚ) : ℚ :=
  (phase1Signals.map fun s => if (throws s).isSome then 0 else
    found sqrt t cfg ctx clock (appliedFactor throws k) s).sum

def faultCount (throws : Signal → Option Err) : ℕ :=
  (phase1Signals ++ [Signal.trustDecay]).countP fun s => (throws s).isSome

/-- the answer of a signal; the decay of phase 2 has nothing to correct here -/
def answer (exp sqrt : ℚ → ℚ) (t : TrustTables) (cfg : TrustConfig) (ctx : TrustContext)
    (clock : Signal → ℕ) : Signal → SignalAdjustment
  | .deviceReputation => evaluateRule signalRules[0] t cfg ctx (clock .deviceReputation)
  | .ipReputation => evaluateRule signalRules[1] t cfg ctx (clock .ipReputation)
  | .requestFrequency => evaluateRule signalRules[2] t cfg ctx (clock .requestFrequency)
  | .ja4hDrift => Ja4hDriftProvider.compute t ctx
  | .behaviorAnomaly => BehaviorAnomalyProvider.compute sqrt t cfg ctx (clock .behaviorAnomaly)
  | .trustDecay => TrustDecayProvider.attenuate exp t cfg ctx (clock .trustDecay) []

theorem answer_delta (s : Signal) :
    (answer exp sqrt t cfg ctx clock s).delta = .num (found sqrt t cfg ctx clock 1 s) := by
  have hrule : ∀ (rule : SignalRule) (now : ℕ), (evaluateRule rule t cfg ctx now).delta =
      .num (if rule.matches_ t cfg ctx now then rule.whenMet.delta else rule.whenUnmet.delta) := by
    intro rule now
    unfold evaluateRule
    exact congrArg JsNum.num (apply_ite RuleOutcome.delta _ _ _)
  cases s with
  | deviceReputation =>
    rw [answer, hrule, found, one_mul]
    exact congrArg JsNum.num (if_congr decide_eq_true_iff rfl rfl)
  | ipReputation =>
    rw [answer, hrule, found, one_mul]
    exact congrArg JsNum.num (if_congr decide_eq_true_iff rfl rfl)
  | requestFrequency =>
    rw [answer, hrule, found]
    exact congrArg JsNum.num (if_congr decide_eq_true_iff rfl rfl)
  | ja4hDrift =>
    rw [answer, found, Ja4hDriftProvider.compute]
    split_ifs with h
    · rfl
    · rfl
  | behaviorAnomaly =>
    rw [answer, found, BehaviorAnomalyProvider.compute, anomaly]
    cases BehaviorAnomalyProvider.warm t cfg ctx with
    | none => rfl
    | some row => rfl
  | trustDecay =>
    rw [answer, found, TrustDecayProvider.attenuate]
    cases t.getSignalRow ctx with
    | none => rfl
    | some row => rfl

theorem answer_decayable (s : Signal) : (answer exp sqrt t cfg ctx clock s).decayable =
    (s = .deviceReputation || s = .ipReputation : Bool) := by
  cases s with
  | deviceReputation => rfl
  | ipReputation => rfl
  | requestFrequency => rfl
  | ja4hDrift =>
    rw [answer, Ja4hDriftProvider.compute]
    split_ifs with h
    · rfl
    · rfl
  | behaviorAnomaly =>
    rw [answer, BehaviorAnomalyProvider.compute]
    cases BehaviorAnomalyProvider.warm t cfg ctx with
    | none => rfl
    | some row => rfl
  | trustDecay =>
    rw [answer, TrustDecayProvider.attenuate]
    cases t.getSignalRow ctx with
    | none => rfl
    | some row => rfl

/-- the same answer with its rational delta -/
def adjustment (exp sqrt : ℚ → ℚ) (t : TrustTables) (cfg : TrustConfig) (ctx : TrustContext)
    (clock : Signal → ℕ) (s : Signal) : FiniteAdjustment :=
  let a := answer exp sqrt t cfg ctx clock s
  ⟨a.source, found sqrt t cfg ctx clock 1 s, a.reason, a.decayable⟩

theorem adjustment_toSignal (s : Signal) :
    (adjustment exp sqrt t cfg ctx clock s).toSignal = answer exp sqrt t cfg ctx clock s := by
  unfold toSignal adjustment
  dsimp only
  rw [← answer_delta]

/-- a task of phase 1 -/
def task (exp sqrt : ℚ → ℚ) (t : TrustTables) (cfg : TrustConfig) (ctx : TrustContext)
    (clock : Signal → ℕ) (throws : Signal → Option Err) (s : Signal) :
    String × Except Err FiniteAdjustment :=
  (s.name, match throws s with
    | none => .ok (adjustment exp sqrt t cfg ctx clock s)
    | some e => .error e)

theorem phase1_tasks :
    (signalAnswers exp sqrt t cfg ctx clock throws).phase1 =
      (phase1Signals.map (task exp sqrt t cfg ctx clock throws)).map toTask := by
  have htask : ∀ s, unlessThrown (throws s) (answer exp sqrt t cfg ctx clock s) =
      (task exp sqrt t cfg ctx clock throws s).2.map toSignal := by
    intro s
    unfold task unlessThrown
    cases throws s with
    | none => exact congrArg Except.ok (adjustment_toSignal s).symm
    | some e => rfl
  have hanswers : (signalAnswers exp sqrt t cfg ctx clock throws).phase1 =
      phase1Signals.map fun s =>
        (s.name, unlessThrown (throws s) (answer exp sqrt t cfg ctx clock s)) := rfl
  rw [hanswers, List.map_map]
  exact List.map_congr_left fun s _ => Prod.ext rfl (htask s)

theorem task_delta (s : Signal) : (ofTask (task exp sqrt t cfg ctx clock throws s)).delta =
    if (throws s).isSome then 1 / 10 else found sqrt t cfg ctx clock 1 s := by
  unfold task
  cases throws s with
  | none => rfl
  | some e => rfl

/-- Only the reputations decay, and only where they are favourable. -/
theorem adjustment_attenuated (k : ℚ) (s : Signal) :
    (adjustment exp sqrt t cfg ctx clock s).attenuated k = found sqrt t cfg ctx clock k s := by
  have hreputation : ∀ a : FiniteAdjustment, a.decayable = true → ∀ c : Prop, ∀ [Decidable c],
      a.delta = (if c then 1 * (-15 / 100) else 15 / 100) →
        a.attenuated k = if c then k * (-15 / 100) else 15 / 100 := by
    intro a hdecayable c _ hdelta
    unfold attenuated
    rw [hdecayable, hdelta]
    by_cases hc : c
    · simp only [if_pos hc]
      norm_num
    · simp only [if_neg hc]
      norm_num
  have hfixed : ∀ a : FiniteAdjustment, a.decayable = false → a.attenuated k = a.delta := by
    intro a hfixed
    exact if_neg fun h => Bool.false_ne_true (hfixed.symm.trans h.1)
  have hdecayable : (adjustment exp sqrt t cfg ctx clock s).decayable =
      (s = .deviceReputation || s = .ipReputation : Bool) := answer_decayable s
  cases s with
  | deviceReputation => exact hreputation _ hdecayable _ rfl
  | ipReputation => exact hreputation _ hdecayable _ rfl
  | requestFrequency => exact hfixed _ hdecayable
  | ja4hDrift => exact hfixed _ hdecayable
  | behaviorAnomaly => exact hfixed _ hdecayable
  | trustDecay => exact hfixed _ hdecayable

theorem task_attenuated (k : ℚ) (s : Signal) :
    (ofTask (task exp sqrt t cfg ctx clock throws s)).attenuated k =
      if (throws s).isSome then 1 / 10 else found sqrt t cfg ctx clock k s := by
  unfold task
  cases throws s with
  | none => exact adjustment_attenuated k s
  | some e => rfl

/-- Each fault counts as 0.1, whatever the signal would have answered. -/
theorem sum_faults (throws : Signal → Option Err) (g : Signal → ℚ) (l : List Signal) :
    (l.map fun s => if (throws s).isSome then 1 / 10 else g s).sum =
      (l.map fun s => if (throws s).isSome then 0 else g s).sum +
        (l.countP fun s => (throws s).isSome : ℕ) / 10 := by
  induction l with
  | nil => simp
  | cons s l ih =>
    rw [List.map_cons, List.map_cons, List.sum_cons, List.sum_cons, ih, List.countP_cons]
    split_ifs
    · push_cast
      ring
    · push_cast
      ring

/-- The score from what is left of the signals. -/
theorem exactScore_eq (hterminal : (store.isTerminal now ctx.ja4h).1 = false) :
    TrustScoreService.exactScore exp sqrt t cfg store now clock throws ctx =
      .num (clamp01 (1 / 2 + (remaining sqrt t cfg ctx clock throws
        (decayFactor exp t cfg ctx (clock .trustDecay)) + faultCount throws / 10))) := by
  let tasks := phase1Signals.map (task exp sqrt t cfg ctx clock throws)
  unfold TrustScoreService.exactScore
  cases hdecay : throws .trustDecay with
  | none =>
    have hany : signalAnswers exp sqrt t cfg ctx clock throws =
        anyAnswers exp t cfg ctx (clock .trustDecay) tasks := by
      unfold anyAnswers
      rw [← phase1_tasks]
      simp only [signalAnswers, unlessThrown, hdecay]
    rw [hany, evaluateScore_attenuated hterminal]
    congr 3
    simp only [attenuatedSum, tasks, List.map_map, Function.comp_def, task_attenuated]
    rw [sum_faults, faultCount, List.countP_append]
    simp [remaining, appliedFactor, hdecay]
  | some e =>
    have hanswers : signalAnswers exp sqrt t cfg ctx clock throws =
        ⟨tasks.map toTask,
          (signalAnswers exp sqrt t cfg ctx clock throws).attenuate⟩ := by
      rw [← phase1_tasks]
    rw [hanswers, evaluateScore_of_correction hterminal tasks _ (c := 1 / 10) ?_]
    · congr 3
      simp only [tasks, List.map_map, Function.comp_def, task_delta]
      rw [sum_faults, faultCount, List.countP_append]
      simp [remaining, appliedFactor, hdecay]
      ring
    · simp only [signalAnswers, unlessThrown, hdecay, TrustScoreService.settled]
      rfl

theorem missed_add_remaining (throws : Signal → Option Err) (k : ℚ) :
    missed sqrt t cfg ctx clock throws k + remaining sqrt t cfg ctx clock throws k =
      (phase1Signals.map (found sqrt t cfg ctx clock k)).sum := by
  have hsplit : ∀ k, (phase1Signals.map fun s => if (throws s).isSome then
        found sqrt t cfg ctx clock k s else 0).sum +
      (phase1Signals.map fun s => if (throws s).isSome then 0 else
        found sqrt t cfg ctx clock k s).sum =
        (phase1Signals.map (found sqrt t cfg ctx clock k)).sum := by
    intro k
    rw [← List.sum_map_add]
    congr 2
    funext s
    split_ifs
    · exact add_zero _
    · exact zero_add _
  unfold missed remaining
  rw [add_right_comm, hsplit]
  unfold appliedFactor
  split_ifs
  · rw [← List.sum_map_add]
    simp
  · exact add_zero _

theorem clamp01_le_iff {x y : ℚ} (hx : 0 < x) : clamp01 x ≤ clamp01 y ↔ x ≤ y ∨ 1 ≤ y := by
  constructor
  · intro h
    by_contra hboth
    obtain ⟨hlt, hone⟩ := not_or.mp hboth
    have hmax : clamp01 x = min 1 x := by rw [clamp01, max_eq_right hx.le]
    have hy : clamp01 y ≤ max 0 y := min_le_right 1 _
    rw [hmax] at h
    rcases min_le_iff.mp (h.trans hy) with h1 | hxy
    · rcases le_max_iff.mp h1 with h0 | hy1
      · linarith
      · exact hone hy1
    · rcases le_max_iff.mp hxy with h0 | hle
      · linarith
      · exact hlt hle
  · rintro (hle | hone)
    · exact clamp01_mono hle
    · have hy : clamp01 y = 1 := min_eq_left (hone.trans (le_max_right 0 y))
      rw [hy]
      exact clamp01_le_one x

/-- The most favourable answers leave the score above 0. -/
theorem found_sum_pos {k : ℚ} (hk : k ≤ 1) :
    0 < 1 / 2 + (phase1Signals.map (found sqrt t cfg ctx clock k)).sum := by
  have hdevice : -15 / 100 ≤ found sqrt t cfg ctx clock k .deviceReputation := by
    unfold found
    dsimp only
    split_ifs <;> linarith
  have hip : -15 / 100 ≤ found sqrt t cfg ctx clock k .ipReputation := by
    unfold found
    dsimp only
    split_ifs <;> linarith
  have hfrequency : -1 / 10 ≤ found sqrt t cfg ctx clock k .requestFrequency := by
    unfold found
    dsimp only
    split_ifs <;> linarith
  have hdrift : -5 / 100 ≤ found sqrt t cfg ctx clock k .ja4hDrift := by
    unfold found
    dsimp only
    split_ifs <;> linarith
  have hanomaly : 0 ≤ found sqrt t cfg ctx clock k .behaviorAnomaly := by
    unfold found anomaly
    dsimp only
    split
    · exact le_rfl
    · exact le_min (by norm_num) (le_max_left 0 _)
  simp only [phase1Signals, List.map_cons, List.map_nil, List.sum_cons, List.sum_nil]
  linarith

/-- The score with faults is at least the score without any exactly if the fingerprint is
terminal, or the signals that throw would not have added more than 0.1 each taken together, or
the other signals with 0.1 for each fault reach the ceiling. -/
theorem faults_keep_risk_iff (exp sqrt : ℚ → ℚ) (t : TrustTables) (cfg : TrustConfig)
    (ctx : TrustContext) (store : FingerprintStore) (now : ℕ) (clock : Signal → ℕ)
    (throws : Signal → Option Err)
    (hk : decayFactor exp t cfg ctx (clock .trustDecay) ∈ Set.Ioc 0 1) :
    let k := decayFactor exp t cfg ctx (clock .trustDecay)
    (TrustScoreService.exactScore exp sqrt t cfg store now clock (fun _ => none) ctx).le
        (TrustScoreService.exactScore exp sqrt t cfg store now clock throws ctx) = true ↔
      (store.isTerminal now ctx.ja4h).1 = true ∨
        missed sqrt t cfg ctx clock throws k ≤ faultCount throws / 10 ∨
        1 / 2 ≤ remaining sqrt t cfg ctx clock throws k + faultCount throws / 10 := by
  intro k
  cases hterminal : (store.isTerminal now ctx.ja4h).1 with
  | true =>
    have hone : ∀ throws,
        TrustScoreService.exactScore exp sqrt t cfg store now clock throws ctx = .num 1 := by
      intro throws
      unfold TrustScoreService.exactScore TrustScoreService.evaluateScore
      rw [← Prod.eta (store.isTerminal now ctx.ja4h), hterminal]
      rfl
    rw [hone, hone]
    simp [JsNum.num_le]
  | false =>
    have hwithout : remaining sqrt t cfg ctx clock (fun _ => none) k =
        (phase1Signals.map (found sqrt t cfg ctx clock k)).sum := rfl
    have hcount : faultCount (fun _ => none) = 0 := rfl
    rw [exactScore_eq hterminal, exactScore_eq hterminal, JsNum.num_le, hwithout, hcount,
      Nat.cast_zero, zero_div, add_zero, clamp01_le_iff (found_sum_pos hk.2),
      ← missed_add_remaining throws k]
    constructor
    · rintro (hle | hone)
      · exact .inr (.inl (by linarith))
      · exact .inr (.inr (by linarith))
    · rintro (hfalse | hle | hone)
      · cases hfalse
      · exact .inl (by linarith)
      · exact .inr (by linarith)

/-- A known device whose reputation cannot be read. -/
theorem faults_keep_risk_known :
    let throws : Signal → Option Err :=
      fun s => if s = .deviceReputation then some (.error "timeout") else none
    let score := fun throws => TrustScoreService.exactScore (fun _ => 1) (fun _ => 1) sampleTables
      defaultTrustConfig {} 5000 (fun _ => 5000) throws laptopContext
    (score fun _ => none).le (score throws) = true := by
  intro throws score
  refine (faults_keep_risk_iff (fun _ => 1) (fun _ => 1) sampleTables defaultTrustConfig
    laptopContext {} 5000 (fun _ => 5000) throws ?_).mpr (.inr (.inl ?_))
  · exact ⟨by decide +kernel, by decide +kernel⟩
  · decide +kernel

/-- A user without history: the unknown device counts 0.15, its fault 0.1. -/
theorem fault_lowers_risk :
    let tables : TrustTables := ⟨[], [], List.nodup_nil, by simp⟩
    let throws : Signal → Option Err :=
      fun s => if s = .deviceReputation then some (.error "timeout") else none
    let score := fun throws => TrustScoreService.exactScore (fun _ => 1) (fun _ => 1) tables
      defaultTrustConfig {} 5000 (fun _ => 5000) throws laptopContext
    decayFactor (fun _ => 1) tables defaultTrustConfig laptopContext 5000 = 1 ∧
      (score fun _ => none) = .num (13 / 20) ∧ score throws = .num (3 / 5) ∧
      ¬ (score fun _ => none).le (score throws) = true := by
  exact ⟨rfl, by decide +kernel, by decide +kernel, by decide +kernel⟩

end ZTG
