import ZtGateway.Lib.Run
import ZtGateway.Spec.Services

/-! `ThreatEscalationService` with the threat metrics of `PolicyMetrics`, over the
policy slice of the configuration that `validationSchema` accepts. Every operation
says by how much the clock advances before each of its readings, so the clock of a
run never goes back; times are milliseconds. -/

namespace ZTG

inductive ThreatLevel where
  | normal
  | elevated
  | critical
  deriving DecidableEq

def ThreatLevel.order : ThreatLevel → ℕ
  | .normal => 0
  | .elevated => 1
  | .critical => 2

inductive SignalType where
  | policyDeny
  | authInvalidToken
  | honeypotTrigger
  | mfaFailed
  | mfaRateLimited
  | auditSignal
  deriving DecidableEq

/-- `PolicyConfig` without the two paths, which only the enforcer reads -/
structure PolicyConfig where
  challengeThreshold : ℚ
  denyThreshold : ℚ
  elevatedChallengeThreshold : ℚ
  elevatedDenyThreshold : ℚ
  criticalChallengeThreshold : ℚ
  criticalDenyThreshold : ℚ
  threatWindowMs : ℕ
  threatWindowMaxEvents : ℕ
  threatElevatedDenies : ℕ
  threatCriticalDenies : ℕ
  threatElevatedInvalidTokens : ℕ
  threatCriticalInvalidTokens : ℕ
  threatElevatedHoneypot : ℕ
  threatCriticalHoneypot : ℕ
  threatElevatedMfaRateLimited : ℕ
  threatCriticalMfaRateLimited : ℕ
  threatCooldownMs : ℕ

namespace PolicyConfig

/-- `Joi.number().min(0).max(1)` -/
def unit (x : ℚ) : Bool := decide (0 ≤ x) && decide (x ≤ 1)

/-- `Joi.number().integer().min(n)` -/
def atLeast (n x : ℕ) : Bool := decide (n ≤ x)

/-- the ranges `validationSchema` gives the fields of this slice -/
def fieldsValid (cfg : PolicyConfig) : Bool :=
  [cfg.challengeThreshold, cfg.denyThreshold, cfg.elevatedChallengeThreshold,
    cfg.elevatedDenyThreshold, cfg.criticalChallengeThreshold, cfg.criticalDenyThreshold].all unit &&
  [cfg.threatWindowMs, cfg.threatCooldownMs].all (atLeast 1000) &&
  [cfg.threatWindowMaxEvents, cfg.threatElevatedDenies, cfg.threatCriticalDenies,
    cfg.threatElevatedInvalidTokens, cfg.threatCriticalInvalidTokens, cfg.threatElevatedHoneypot,
    cfg.threatCriticalHoneypot, cfg.threatElevatedMfaRateLimited,
    cfg.threatCriticalMfaRateLimited].all (atLeast 1)

/-- the message of the first cross-field check that fails -/
def crossFieldError (cfg : PolicyConfig) : Option String :=
  if !(cfg.elevatedChallengeThreshold < cfg.challengeThreshold) then
    some "POLICY_ELEVATED_CHALLENGE_THRESHOLD must be < POLICY_CHALLENGE_THRESHOLD"
  else if !(cfg.criticalChallengeThreshold < cfg.elevatedChallengeThreshold) then
    some "POLICY_CRITICAL_CHALLENGE_THRESHOLD must be < POLICY_ELEVATED_CHALLENGE_THRESHOLD"
  else if !(cfg.elevatedDenyThreshold < cfg.denyThreshold) then
    some "POLICY_ELEVATED_DENY_THRESHOLD must be < POLICY_DENY_THRESHOLD"
  else if !(cfg.criticalDenyThreshold < cfg.elevatedDenyThreshold) then
    some "POLICY_CRITICAL_DENY_THRESHOLD must be < POLICY_ELEVATED_DENY_THRESHOLD"
  else if !(cfg.threatElevatedDenies < cfg.threatCriticalDenies) then
    some "THREAT_ELEVATED_DENIES must be < THREAT_CRITICAL_DENIES"
  else if !(cfg.threatElevatedInvalidTokens < cfg.threatCriticalInvalidTokens) then
    some "THREAT_ELEVATED_INVALID_TOKENS must be < THREAT_CRITICAL_INVALID_TOKENS"
  else if !(cfg.threatElevatedHoneypot < cfg.threatCriticalHoneypot) then
    some "THREAT_ELEVATED_HONEYPOT must be < THREAT_CRITICAL_HONEYPOT"
  else if !(cfg.threatElevatedMfaRateLimited < cfg.threatCriticalMfaRateLimited) then
    some "THREAT_ELEVATED_MFA_RATE_LIMITED must be < THREAT_CRITICAL_MFA_RATE_LIMITED"
  else none

end PolicyConfig

/-- a policy slice that `validationSchema` lets through -/
structure ValidPolicyConfig extends PolicyConfig where
  fields : toPolicyConfig.fieldsValid = true
  cross : toPolicyConfig.crossFieldError = none

structure WindowEvent where
  ts : ℕ
  type : SignalType
  deriving DecidableEq

/-- who called `transitionTo` -/
inductive TransitionCause where
  | recompute
  | cooldown
  | manual
  deriving DecidableEq

/-- one increment of the transitions counter; its labels are `from_` and `to_` -/
structure Transition where
  from_ : ThreatLevel
  to_ : ThreatLevel
  cause : TransitionCause
  deriving DecidableEq

/-- `PolicyMetrics.setThreatLevel`: the value of each label of the gauge -/
def setThreatLevel (level : ThreatLevel) : ThreatLevel → ℕ := fun l => if l = level then 1 else 0

structure ThreatState where
  events : List WindowEvent := []
  level : ThreatLevel := .normal
  lastTransitionAt : ℕ
  lastSignalAt : ℕ
  manualOverride : Option ThreatLevel := none
  threatLevel : ThreatLevel → ℕ := setThreatLevel .normal
  transitions : List Transition := []

namespace ThreatState

/-- the constructor -/
def start (now : ℕ) : ThreatState := { lastTransitionAt := now, lastSignalAt := now }

/-- The flag `manual` of the source is `cause = .manual`. -/
def transitionTo (st : ThreatState) (next : ThreatLevel) (now : ℕ) (cause : TransitionCause) :
    ThreatState :=
  if st.level = next ∧ cause ≠ .manual then st
  else
    { st with level := next, lastTransitionAt := now,
              transitions := st.transitions ++ [⟨st.level, next, cause⟩],
              threatLevel := setThreatLevel next }

def evict (cfg : PolicyConfig) (st : ThreatState) (now : ℕ) : ThreatState :=
  { st with events := st.events.dropWhile fun e => e.ts + cfg.threatWindowMs < now }

def countByType (st : ThreatState) (type : SignalType) : ℕ := st.events.countP fun e => e.type = type

/-- the pushes of `recomputeLevel` in order, each with its condition -/
def pushes (cfg : PolicyConfig) (c : SignalType → ℕ) : List (Bool × ThreatLevel) :=
  [(decide (cfg.threatElevatedDenies ≤ c .policyDeny), .elevated),
    (decide (cfg.threatElevatedInvalidTokens ≤ c .authInvalidToken), .elevated),
    (decide (cfg.threatElevatedHoneypot ≤ c .honeypotTrigger), .elevated),
    (decide (cfg.threatCriticalDenies ≤ c .policyDeny), .critical),
    (decide (cfg.threatCriticalInvalidTokens ≤ c .authInvalidToken), .critical),
    (decide (cfg.threatCriticalHoneypot ≤ c .honeypotTrigger), .critical),
    (decide (cfg.threatElevatedMfaRateLimited ≤ c .mfaRateLimited), .elevated),
    (decide (cfg.threatCriticalMfaRateLimited ≤ c .mfaRateLimited), .critical)]

def candidates (cfg : PolicyConfig) (st : ThreatState) : List ThreatLevel :=
  .normal :: ((pushes cfg st.countByType).filter (·.1)).map (·.2)

/-- the loop over the candidates -/
def highest (levels : List ThreatLevel) : ThreatLevel :=
  levels.foldl (fun next cand => if next.order < cand.order then cand else next) .normal

def recomputeLevel (cfg : PolicyConfig) (st : ThreatState) (now : ℕ) : ThreatState :=
  if st.manualOverride.isSome then st
  else
    let st := st.evict cfg now
    let next := highest (st.candidates cfg)
    if next ≠ st.level then st.transitionTo next now .recompute else st

def record (cfg : PolicyConfig) (st : ThreatState) (now : ℕ) (type : SignalType) : ThreatState :=
  let events := st.events ++ [⟨now, type⟩]
  let st := { st with events := events.drop (events.length - cfg.threatWindowMaxEvents) }
  recomputeLevel cfg { st.evict cfg now with lastSignalAt := now } now

/-- the loop of `maybeCooldown` with `steps` iterations left -/
def coolDown (now : ℕ) : ℕ → ThreatState → ThreatState
  | 0, st => st
  | steps + 1, st =>
    match st.level with
    | .critical => coolDown now steps (st.transitionTo .elevated now .cooldown)
    | .elevated => coolDown now steps (st.transitionTo .normal now .cooldown)
    | .normal => st

def maybeCooldown (cfg : PolicyConfig) (st : ThreatState) (now : ℕ) : ThreatState :=
  if st.manualOverride.isSome then st
  else if now < st.lastSignalAt + cfg.threatCooldownMs then st
  else coolDown now ((now - st.lastTransitionAt) / cfg.threatCooldownMs) st

def effectiveLevel (st : ThreatState) : ThreatLevel := st.manualOverride.getD st.level

end ThreatState

def PolicyConfig.challengeAt (cfg : PolicyConfig) : ThreatLevel → ℚ
  | .critical => cfg.criticalChallengeThreshold
  | .elevated => cfg.elevatedChallengeThreshold
  | .normal => cfg.challengeThreshold

def PolicyConfig.denyAt (cfg : PolicyConfig) : ThreatLevel → ℚ
  | .critical => cfg.criticalDenyThreshold
  | .elevated => cfg.elevatedDenyThreshold
  | .normal => cfg.denyThreshold

namespace ThreatState

def currentChallengeThreshold (cfg : PolicyConfig) (st : ThreatState) (now : ℕ) :
    ℚ × ThreatState :=
  let st := st.maybeCooldown cfg now
  (cfg.challengeAt st.effectiveLevel, st)

def currentDenyThreshold (cfg : PolicyConfig) (st : ThreatState) (now : ℕ) : ℚ × ThreatState :=
  let st := st.maybeCooldown cfg now
  (cfg.denyAt st.effectiveLevel, st)

/-- `now` is the clock that `transitionTo` is given, read only if the level changes -/
def setManualLevel (st : ThreatState) (level : ThreatLevel) (now : ℕ) : ThreatState :=
  let st := { st with manualOverride := some level }
  if st.level = level then st else st.transitionTo level now .manual

def clearManualLevel (cfg : PolicyConfig) (st : ThreatState) (now₁ now₂ : ℕ) : ThreatState :=
  recomputeLevel cfg (maybeCooldown cfg { st with manualOverride := none } now₁) now₂

structure Snapshot where
  level : ThreatLevel
  since : ℕ
  signalCounts : SignalType → ℕ
  challenge : ℚ
  deny : ℚ
  override : Option ThreatLevel

/-- The fields are evaluated in the order the source lists them. -/
def snapshot (cfg : PolicyConfig) (st : ThreatState) (now₁ now₂ : ℕ) : Snapshot × ThreatState :=
  let (challenge, st₁) := st.currentChallengeThreshold cfg now₁
  let (deny, st₂) := st₁.currentDenyThreshold cfg now₂
  ({ level := st.effectiveLevel, since := st.lastTransitionAt, signalCounts := st.countByType,
     challenge := challenge, deny := deny, override := st₂.manualOverride }, st₂)

end ThreatState

/-- One call on the service; `dt` is how far the clock advances before it is read. -/
inductive ThreatOp where
  | signal (dt : ℕ) (type : SignalType)
  | currentChallengeThreshold (dt : ℕ)
  | currentDenyThreshold (dt : ℕ)
  | snapshot (dt₁ dt₂ : ℕ)
  | setManualLevel (dt : ℕ) (level : ThreatLevel)
  | clearManualLevel (dt₁ dt₂ : ℕ)

/-- the service and the time of the last clock reading -/
structure ThreatWorld where
  svc : ThreatState
  now : ℕ

namespace ThreatWorld

def start (now : ℕ) : ThreatWorld := ⟨.start now, now⟩

def step (cfg : PolicyConfig) (w : ThreatWorld) : ThreatOp → ThreatWorld
  | .signal dt type => ⟨w.svc.record cfg (w.now + dt) type, w.now + dt⟩
  | .currentChallengeThreshold dt =>
    ⟨(w.svc.currentChallengeThreshold cfg (w.now + dt)).2, w.now + dt⟩
  | .currentDenyThreshold dt => ⟨(w.svc.currentDenyThreshold cfg (w.now + dt)).2, w.now + dt⟩
  | .snapshot dt₁ dt₂ =>
    ⟨(w.svc.snapshot cfg (w.now + dt₁) (w.now + dt₁ + dt₂)).2, w.now + dt₁ + dt₂⟩
  | .setManualLevel dt level => ⟨w.svc.setManualLevel level (w.now + dt), w.now + dt⟩
  | .clearManualLevel dt₁ dt₂ =>
    ⟨w.svc.clearManualLevel cfg (w.now + dt₁) (w.now + dt₁ + dt₂), w.now + dt₁ + dt₂⟩

end ThreatWorld

end ZTG
