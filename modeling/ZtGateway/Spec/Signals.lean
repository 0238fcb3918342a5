import ZtGateway.Spec.Telemetry
import ZtGateway.Spec.TrustScore

/-! What the signals of `TrustScoreService` compute: `SIGNAL_RULES`, the two providers of
phase 1 and `TrustDecayProvider`, over the tables they read and in exact arithmetic.
`Math.exp` and `Math.sqrt` are parameters. Times are milliseconds. -/

namespace ZTG

open Telemetry (Triple SignalRow)

structure TrustConfig where
  knownThreshold : ℚ
  decayHalfLifeMs : ℚ
  anomalyWarmupN : ℚ
  frequencyWindowMs : ℚ
  frequencyNormalMax : ℚ

/-- `trust_signals` with its primary key, and the user and the time of each row of
`trust_activity`. No variance is negative: `recordAllowOutcome` is the only writer. -/
structure TrustTables where
  signals : List (Triple × SignalRow)
  activity : List (String × ℚ)
  keys : (signals.map (·.1)).Nodup
  variance : ∀ r ∈ signals, 0 ≤ r.2.rateEmaVar

namespace TrustTables

def getSignalRow (t : TrustTables) (ctx : TrustContext) : Option SignalRow :=
  t.signals.lookup ⟨ctx.userId, ctx.deviceId, ctx.ip⟩

def sumAllowsForUserIp (t : TrustTables) (ctx : TrustContext) : ℕ :=
  ((t.signals.filter fun r => r.1.userId = ctx.userId ∧ r.1.ip = ctx.ip).map
    (·.2.allowCount)).sum

def countActivitySince (t : TrustTables) (userId : String) (since : ℤ) : ℕ :=
  t.activity.countP fun r => r.1 = userId ∧ (since : ℚ) < r.2

def countAllowsForUserDeviceIp (t : TrustTables) (ctx : TrustContext) : ℕ :=
  ((t.getSignalRow ctx).map (·.allowCount)).getD 0

end TrustTables

inductive Signal where
  | deviceReputation
  | ipReputation
  | requestFrequency
  | ja4hDrift
  | behaviorAnomaly
  | trustDecay
  deriving DecidableEq

def Signal.name : Signal → String
  | .deviceReputation => "device_reputation"
  | .ipReputation => "ip_reputation"
  | .requestFrequency => "request_frequency"
  | .ja4hDrift => "ja4h_drift"
  | .behaviorAnomaly => "behavior_anomaly"
  | .trustDecay => "trust_decay"

inductive Compare where
  | gte
  | gt

structure RuleOutcome where
  delta : ℚ
  reason : String

/-- `query` is given the time that the source reads from the request or the clock -/
structure SignalRule where
  signal : Signal
  decayable : Bool
  query : TrustTables → TrustContext → TrustConfig → ℕ → ℕ
  threshold : TrustConfig → ℚ
  compare : Compare
  whenMet : RuleOutcome
  whenUnmet : RuleOutcome

/-- `new Date(x)`, which drops the fraction -/
def dateOf (x : ℚ) : ℤ := if 0 ≤ x then ⌊x⌋ else ⌈x⌉

/-- `SIGNAL_RULES` -/
def signalRules : List SignalRule :=
  [{ signal := .deviceReputation
     decayable := true
     query := fun t ctx _ _ => t.countAllowsForUserDeviceIp ctx
     threshold := (·.knownThreshold)
     compare := .gte
     whenMet := ⟨-15 / 100, "device_known"⟩
     whenUnmet := ⟨15 / 100, "device_unknown"⟩ },
   { signal := .ipReputation
     decayable := true
     query := fun t ctx _ _ => t.sumAllowsForUserIp ctx
     threshold := (·.knownThreshold)
     compare := .gte
     whenMet := ⟨-15 / 100, "ip_trusted"⟩
     whenUnmet := ⟨15 / 100, "ip_untrusted"⟩ },
   { signal := .requestFrequency
     decayable := false
     query := fun t ctx cfg now =>
       t.countActivitySince ctx.userId (dateOf (now - cfg.frequencyWindowMs))
     threshold := (·.frequencyNormalMax)
     compare := .gt
     whenMet := ⟨2 / 10, "frequency_burst"⟩
     whenUnmet := ⟨-1 / 10, "frequency_normal"⟩ }]

def SignalRule.matches_ (rule : SignalRule) (t : TrustTables) (cfg : TrustConfig)
    (ctx : TrustContext) (now : ℕ) : Bool :=
  match rule.compare with
  | .gte => decide (rule.threshold cfg ≤ rule.query t ctx cfg now)
  | .gt => decide (rule.threshold cfg < rule.query t ctx cfg now)

def evaluateRule (rule : SignalRule) (t : TrustTables) (cfg : TrustConfig) (ctx : TrustContext)
    (now : ℕ) : SignalAdjustment :=
  let outcome := if rule.matches_ t cfg ctx now then rule.whenMet else rule.whenUnmet
  { source := rule.signal.name, delta := .num outcome.delta, reason := outcome.reason,
    decayable := rule.decayable }

namespace Ja4hDriftProvider

def stable : SignalAdjustment :=
  { source := "ja4h_drift", delta := .num (-5 / 100), reason := "ja4h_stable", decayable := false }

/-- a stored fingerprint that is neither missing nor empty, and not the one of the request -/
def drifted (t : TrustTables) (ctx : TrustContext) : Bool :=
  match t.getSignalRow ctx with
  | none => false
  | some row =>
    if row.ja4h = none ∨ row.ja4h = some "" then false else row.ja4h ≠ some ctx.ja4h

def compute (t : TrustTables) (ctx : TrustContext) : SignalAdjustment :=
  if drifted t ctx then
    { source := "ja4h_drift", delta := .num (3 / 10), reason := "ja4h_drift", decayable := false }
  else stable

end Ja4hDriftProvider

namespace BehaviorAnomalyProvider

/-- a sum over `Math.max(1, length)` -/
def mean (xs : List ℚ) : ℚ := xs.sum / max 1 xs.length

def zHour (sqrt : ℚ → ℚ) (row : SignalRow) (now : ℕ) : ℚ :=
  let hist : List ℚ :=
    (row.hourHistogram ++ List.replicate (24 - row.hourHistogram.length) 0).map fun n => (n : ℚ)
  let h := now / 3600000 % 24
  let meanH := mean hist
  let varH := mean (hist.map fun v => (v - meanH) ^ 2)
  let stdH := sqrt (varH + 1 / 10 ^ 9)
  if 1 / 10 ^ 6 < stdH then |(hist.getD h 0 - meanH) / stdH| else 0

def zRate (sqrt : ℚ → ℚ) (row : SignalRow) (now : ℕ) : ℚ :=
  let interMs : ℤ := max 1 ((now : ℤ) - row.lastSeenAt)
  let instRate : ℚ := 60000 / interMs
  |instRate - row.rateEma| / sqrt (row.rateEmaVar + 1 / 10 ^ 9)

def warm (t : TrustTables) (cfg : TrustConfig) (ctx : TrustContext) : Option SignalRow :=
  (t.getSignalRow ctx).filter fun row => !decide ((row.allowCount : ℚ) < cfg.anomalyWarmupN)

def compute (sqrt : ℚ → ℚ) (t : TrustTables) (cfg : TrustConfig) (ctx : TrustContext)
    (now : ℕ) : SignalAdjustment :=
  match warm t cfg ctx with
  | none =>
    { source := "behavior_anomaly", delta := .num 0, reason := "anomaly_warmup",
      decayable := false }
  | some row =>
    let raw := zHour sqrt row now + zRate sqrt row now
    { source := "behavior_anomaly", delta := .num (min (4 / 10) (max 0 raw)),
      reason := "behavior_anomaly", decayable := false }

end BehaviorAnomalyProvider

namespace TrustDecayProvider

/-- `Math.exp(-idleMs / decayHalfLifeMs)` -/
def factor (exp : ℚ → ℚ) (cfg : TrustConfig) (row : SignalRow) (now : ℕ) : ℚ :=
  let idleMs : ℤ := max 0 ((now : ℤ) - row.lastSeenAt)
  exp (-idleMs / cfg.decayHalfLifeMs)

def attenuate (exp : ℚ → ℚ) (t : TrustTables) (cfg : TrustConfig) (ctx : TrustContext) (now : ℕ)
    (adjustments : List SignalAdjustment) : SignalAdjustment :=
  match t.getSignalRow ctx with
  | none =>
    { source := "trust_decay", delta := .num 0, reason := "trust_decay_none", decayable := false }
  | some row =>
    let k := factor exp cfg row now
    let correction := (adjustments.filter fun a => a.decayable && a.delta.lt (.num 0)).foldl
      (fun sum a => sum.add (a.delta.scale (k - 1))) (.num 0)
    { source := "trust_decay", delta := correction, reason := "trust_decay", decayable := false }

end TrustDecayProvider

/-- an answer, unless the computation throws -/
def unlessThrown (thrown : Option Err) (a : SignalAdjustment) : Except Err SignalAdjustment :=
  match thrown with
  | none => .ok a
  | some e => .error e

/-- The answers of one evaluation; `clock` is the time that each signal reads, and `throws` says
which of them throw. -/
def signalAnswers (exp sqrt : ℚ → ℚ) (t : TrustTables) (cfg : TrustConfig) (ctx : TrustContext)
    (clock : Signal → ℕ) (throws : Signal → Option Err) : SignalAnswers where
  phase1 :=
    (signalRules.map fun rule => (rule.signal.name,
      unlessThrown (throws rule.signal) (evaluateRule rule t cfg ctx (clock rule.signal)))) ++
    [(Signal.ja4hDrift.name,
        unlessThrown (throws .ja4hDrift) (Ja4hDriftProvider.compute t ctx)),
      (Signal.behaviorAnomaly.name, unlessThrown (throws .behaviorAnomaly)
        (BehaviorAnomalyProvider.compute sqrt t cfg ctx (clock .behaviorAnomaly)))]
  attenuate adjustments := unlessThrown (throws .trustDecay)
    (TrustDecayProvider.attenuate exp t cfg ctx (clock .trustDecay) adjustments)

namespace TrustScoreService

/-- `evaluateScore` over the tables, without rounding -/
def exactScore (exp sqrt : ℚ → ℚ) (t : TrustTables) (cfg : TrustConfig) (store : FingerprintStore)
    (now : ℕ) (clock : Signal → ℕ) (throws : Signal → Option Err) (ctx : TrustContext) : JsNum :=
  (evaluateScore .num .add store now (signalAnswers exp sqrt t cfg ctx clock throws) ctx).1

end TrustScoreService

end ZTG
