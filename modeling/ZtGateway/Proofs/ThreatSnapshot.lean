import ZtGateway.Proofs.ThreatReads

/-! `snapshot()` against the state it describes. The level and the time of the last change are
read first; the two thresholds come from readers that apply the cooldown. -/

namespace ZTG

variable {cfg : PolicyConfig} {st st' : ThreatState} {now now' : ℕ}

/-- the state after each reading of the clock that a step makes -/
def ThreatWorld.readings (cfg : PolicyConfig) (w : ThreatWorld) : ThreatOp → List (ℕ × ThreatState)
  | .signal dt type => [(w.now + dt, w.svc.record cfg (w.now + dt) type)]
  | .currentChallengeThreshold dt | .currentDenyThreshold dt =>
    [(w.now + dt, w.svc.maybeCooldown cfg (w.now + dt))]
  | .snapshot dt₁ dt₂ =>
    [(w.now + dt₁, w.svc.maybeCooldown cfg (w.now + dt₁)),
      (w.now + dt₁ + dt₂,
        (w.svc.maybeCooldown cfg (w.now + dt₁)).maybeCooldown cfg (w.now + dt₁ + dt₂))]
  | .setManualLevel dt level => [(w.now + dt, w.svc.setManualLevel level (w.now + dt))]
  | .clearManualLevel dt₁ dt₂ =>
    [(w.now + dt₁, { w.svc with manualOverride := none }.maybeCooldown cfg (w.now + dt₁)),
      (w.now + dt₁ + dt₂, w.svc.clearManualLevel cfg (w.now + dt₁) (w.now + dt₁ + dt₂))]

/-- the level and the time of its last change, after one more reading -/
def noteChange (acc : ThreatLevel × ℕ) (x : ℕ × ThreatState) : ThreatLevel × ℕ :=
  if x.2.effectiveLevel = acc.1 then acc else (x.2.effectiveLevel, x.1)

def lastChange (cfg : PolicyConfig) (w : ThreatWorld) (acc : ThreatLevel × ℕ) :
    List ThreatOp → ThreatLevel × ℕ
  | [] => acc
  | op :: ops => lastChange cfg (w.step cfg op) ((w.readings cfg op).foldl noteChange acc) ops

/-- when a service that starts at `t₀` last changed its level -/
def changedAt (cfg : PolicyConfig) (t₀ : ℕ) (ops : List ThreatOp) : ℕ :=
  (lastChange cfg (.start t₀) (.normal, t₀) ops).2

/-- The snapshot taken at `now` describes one state, whose level dates from `since`. -/
structure SelfConsistent (cfg : PolicyConfig) (st : ThreatState) (now since : ℕ) : Prop where
  challenge : (st.snapshot cfg now now).1.challenge =
    cfg.challengeAt (st.snapshot cfg now now).1.level
  deny : (st.snapshot cfg now now).1.deny = cfg.denyAt (st.snapshot cfg now now).1.level
  since : (st.snapshot cfg now now).1.since = since
  again : ((st.snapshot cfg now now).2.snapshot cfg now now).1 = (st.snapshot cfg now now).1

theorem Ladder.effectiveLevel (h : Ladder cfg st now) : st.effectiveLevel = st.level := by
  unfold ThreatState.effectiveLevel
  cases ho : st.manualOverride with
  | none => rfl
  | some l => exact (h.override l ho).symm

/-- `lastTransitionAt` is the time of the change, if there was one. -/
def Dates (st st' : ThreatState) (now : ℕ) : Prop :=
  st'.lastTransitionAt = if st'.level = st.level then st.lastTransitionAt else now

namespace Dates

theorem of_same (hlevel : st'.level = st.level) (htime : st'.lastTransitionAt = st.lastTransitionAt) :
    Dates st st' now :=
  htime.trans (if_pos hlevel).symm

theorem transitionTo {next : ThreatLevel} {cause : TransitionCause} (hne : st.level ≠ next) :
    Dates st (st.transitionTo next now cause) now := by
  have hmove : st.transitionTo next now cause =
      { st with level := next, lastTransitionAt := now,
                transitions := st.transitions ++ [⟨st.level, next, cause⟩],
                threatLevel := setThreatLevel next } := if_neg fun hc => hne hc.1
  rw [hmove]
  exact (if_neg (Ne.symm hne)).symm

theorem coolDown (now steps : ℕ) (st : ThreatState) :
    Dates st (ThreatState.coolDown now steps st) now := by
  obtain ⟨-, horder, htime⟩ := ThreatState.coolDown_spec now steps st
  by_cases hstay : steps = 0 ∨ st.level = .normal
  · rw [if_pos hstay] at htime
    refine of_same (ThreatLevel.order_inj ?_) htime
    rcases hstay with hzero | hnormal
    · rw [horder, hzero, Nat.sub_zero]
    · rw [horder, hnormal]
      exact Nat.zero_sub steps
  · rw [if_neg hstay] at htime
    obtain ⟨hsteps, hnormal⟩ := not_or.mp hstay
    refine htime.trans (if_neg fun hsame => ?_).symm
    rw [hsame] at horder
    have hpos : st.level.order ≠ 0 := fun hzero => hnormal (ThreatLevel.order_inj hzero)
    omega

theorem maybeCooldown (cfg : PolicyConfig) (st : ThreatState) (now : ℕ) :
    Dates st (st.maybeCooldown cfg now) now := by
  by_cases hopen : ThreatState.GateOpen cfg st now
  · rw [ThreatState.maybeCooldown_of_open hopen]
    exact coolDown now _ st
  · rw [ThreatState.maybeCooldown_of_closed hopen]
    exact of_same rfl rfl

theorem recomputeLevel (cfg : PolicyConfig) (st : ThreatState) (now : ℕ) :
    Dates st (st.recomputeLevel cfg now) now := by
  unfold ThreatState.recomputeLevel
  dsimp only
  split_ifs with hset hne
  · exact of_same rfl rfl
  · exact @transitionTo (st.evict cfg now) now _ _ (Ne.symm hne)
  · exact of_same rfl rfl

theorem record (cfg : PolicyConfig) (st : ThreatState) (now : ℕ) (type : SignalType) :
    Dates st (st.record cfg now type) now :=
  recomputeLevel cfg _ now

theorem setManualLevel (st : ThreatState) (level : ThreatLevel) (now : ℕ) :
    Dates st (st.setManualLevel level now) now := by
  unfold ThreatState.setManualLevel
  dsimp only
  split_ifs with hsame
  · exact of_same rfl rfl
  · exact @transitionTo { st with manualOverride := some level } now _ _ hsame

/-- A reading notes the change of a state that keeps its dates. -/
theorem noteChange (h : Dates st st' now) (hst' : st'.effectiveLevel = st'.level) :
    noteChange (st.level, st.lastTransitionAt) (now, st') = (st'.level, st'.lastTransitionAt) := by
  unfold ZTG.noteChange
  dsimp only
  rw [hst']
  by_cases hsame : st'.level = st.level
  · rw [if_pos hsame, h.trans (if_pos hsame), hsame]
  · rw [if_neg hsame, h.trans (if_neg hsame)]

end Dates

theorem noteChange_step {w : ThreatWorld} (h : Ladder cfg w.svc w.now) (op : ThreatOp) :
    (w.readings cfg op).foldl noteChange (w.svc.level, w.svc.lastTransitionAt) =
      ((w.step cfg op).svc.level, (w.step cfg op).svc.lastTransitionAt) := by
  have hnext := (h.step op).effectiveLevel
  cases op with
  | signal dt type => exact (Dates.record cfg w.svc (w.now + dt) type).noteChange hnext
  | currentChallengeThreshold dt =>
    exact (Dates.maybeCooldown cfg w.svc (w.now + dt)).noteChange hnext
  | currentDenyThreshold dt => exact (Dates.maybeCooldown cfg w.svc (w.now + dt)).noteChange hnext
  | snapshot dt₁ dt₂ =>
    have hfirst := (Dates.maybeCooldown cfg w.svc (w.now + dt₁)).noteChange
      (h.maybeCooldown (Nat.le_add_right _ _)).effectiveLevel
    simp only [ThreatWorld.readings, List.foldl_cons, List.foldl_nil, hfirst]
    exact (Dates.maybeCooldown cfg _ (w.now + dt₁ + dt₂)).noteChange hnext
  | setManualLevel dt level =>
    exact (Dates.setManualLevel w.svc level (w.now + dt)).noteChange hnext
  | clearManualLevel dt₁ dt₂ =>
    have hnone : ∀ t, (ThreatState.maybeCooldown cfg { w.svc with manualOverride := none }
        t).manualOverride = none :=
      fun t => (ThreatState.maybeCooldown_untouched cfg _ t).manualOverride
    have hfirst := (Dates.maybeCooldown cfg { w.svc with manualOverride := none }
      (w.now + dt₁)).noteChange (by unfold ThreatState.effectiveLevel; rw [hnone]; rfl)
    simp only [ThreatWorld.readings, List.foldl_cons, List.foldl_nil]
    rw [hfirst]
    exact (Dates.recomputeLevel cfg _ (w.now + dt₁ + dt₂)).noteChange hnext

/-- The service keeps the time of its last change of level. -/
theorem lastChange_of_run {w : ThreatWorld} (h : Ladder cfg w.svc w.now) (ops : List ThreatOp) :
    lastChange cfg w (w.svc.level, w.svc.lastTransitionAt) ops =
      ((runSteps (ThreatWorld.step cfg) w ops).svc.level,
        (runSteps (ThreatWorld.step cfg) w ops).svc.lastTransitionAt) := by
  induction ops generalizing w with
  | nil => rfl
  | cons op ops ih =>
    rw [lastChange, noteChange_step h op, runSteps_cons]
    exact ih (h.step op)

theorem snapshot_of_rests (h : st.Rests cfg now) :
    SelfConsistent cfg st now st.lastTransitionAt := by
  have hsnapshot : (st.snapshot cfg now now).2 = st := by
    show (st.maybeCooldown cfg now).maybeCooldown cfg now = st
    rw [maybeCooldown_of_rests h, maybeCooldown_of_rests h]
  refine ⟨?_, ?_, rfl, by rw [hsnapshot]⟩
  · show cfg.challengeAt (st.maybeCooldown cfg now).effectiveLevel = cfg.challengeAt st.effectiveLevel
    rw [maybeCooldown_of_rests h]
  · show cfg.denyAt ((st.maybeCooldown cfg now).maybeCooldown cfg now).effectiveLevel =
      cfg.denyAt st.effectiveLevel
    rw [maybeCooldown_of_rests h, maybeCooldown_of_rests h]

/-- In every state that a validated service reaches, and at every later time, the snapshot
describes one state exactly if no rung is due. -/
theorem snapshot_consistent_iff (cfg : ValidPolicyConfig) (t₀ : ℕ) (ops : List ThreatOp) (dt : ℕ) :
    let w := runSteps (ThreatWorld.step cfg.toPolicyConfig) (.start t₀) ops
    SelfConsistent cfg.toPolicyConfig w.svc (w.now + dt)
        (changedAt cfg.toPolicyConfig t₀ ops) ↔
      w.svc.Rests cfg.toPolicyConfig (w.now + dt) := by
  intro w
  have hladder : Ladder cfg.toPolicyConfig w.svc w.now := Ladder.run _ t₀ ops
  have hsince : changedAt cfg.toPolicyConfig t₀ ops = w.svc.lastTransitionAt :=
    congrArg Prod.snd (lastChange_of_run (Ladder.start cfg.toPolicyConfig t₀) ops)
  rw [hsince]
  refine ⟨fun h => ?_, fun h => snapshot_of_rests h⟩
  by_contra hdue
  have hlower := maybeCooldown_lower cfg.cooldown_pos hdue
  have hcooled : (w.svc.maybeCooldown cfg.toPolicyConfig (w.now + dt)).effectiveLevel =
      (w.svc.maybeCooldown cfg.toPolicyConfig (w.now + dt)).level :=
    (hladder.maybeCooldown (Nat.le_add_right _ _)).effectiveLevel
  have hchallenge : cfg.toPolicyConfig.challengeAt
      (w.svc.maybeCooldown cfg.toPolicyConfig (w.now + dt)).effectiveLevel =
        cfg.toPolicyConfig.challengeAt w.svc.effectiveLevel := h.challenge
  rw [hcooled, hladder.effectiveLevel] at hchallenge
  exact (cfg.challengeAt_lt hlower).ne' hchallenge

/-- Critical at 0, a snapshot one window later: the level is Critical and dates from 0, with the
thresholds of Elevated, and the next snapshot says Elevated. -/
theorem snapshot_of_due_cooldown :
    let w := runSteps (ThreatWorld.step quickCooldown.toPolicyConfig) (.start 0)
      [.signal 0 .policyDeny, .signal 0 .policyDeny]
    (w.svc.snapshot quickCooldown.toPolicyConfig 1000 1000).1.level = .critical ∧
      (w.svc.snapshot quickCooldown.toPolicyConfig 1000 1000).1.challenge =
        quickCooldown.elevatedChallengeThreshold ∧
      ((w.svc.snapshot quickCooldown.toPolicyConfig 1000 1000).2.snapshot
        quickCooldown.toPolicyConfig 1000 1000).1.level = .elevated ∧
      ¬ SelfConsistent quickCooldown.toPolicyConfig w.svc (w.now + 1000)
        (changedAt quickCooldown.toPolicyConfig 0 [.signal 0 .policyDeny, .signal 0 .policyDeny]) :=
  ⟨by decide, by decide +kernel, by decide, fun h => absurd h.challenge (by decide +kernel)⟩

end ZTG
