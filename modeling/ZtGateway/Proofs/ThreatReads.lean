import ZtGateway.Proofs.ThreatCooldown

/-! Two runs with the same signals, overrides and clears at the same times, and any reads.
Each is compared with the run that reads nothing: every write sets the level from the events
and the override, which no read touches, so the levels can differ only while the cooldown
gate is open. -/

namespace ZTG

/-- a signal, an override or a clear, with its clock readings -/
inductive Write where
  | signal (t : ℕ) (type : SignalType)
  | setManualLevel (t : ℕ) (level : ThreatLevel)
  | clearManualLevel (t₁ t₂ : ℕ)
  deriving DecidableEq

/-- how far the clock advances in an operation -/
def ThreatOp.elapsed : ThreatOp → ℕ
  | .signal dt _ | .currentChallengeThreshold dt | .currentDenyThreshold dt
  | .setManualLevel dt _ => dt
  | .snapshot dt₁ dt₂ | .clearManualLevel dt₁ dt₂ => dt₁ + dt₂

def ThreatOp.write (now : ℕ) : ThreatOp → List Write
  | .signal dt type => [.signal (now + dt) type]
  | .setManualLevel dt level => [.setManualLevel (now + dt) level]
  | .clearManualLevel dt₁ dt₂ => [.clearManualLevel (now + dt₁) (now + dt₁ + dt₂)]
  | .currentChallengeThreshold _ | .currentDenyThreshold _ | .snapshot _ _ => []

/-- the writes of a run that starts at `now` -/
def writes (now : ℕ) : List ThreatOp → List Write
  | [] => []
  | op :: ops => op.write now ++ writes (now + op.elapsed) ops

/-- the service without reads -/
def Write.apply (cfg : PolicyConfig) (st : ThreatState) : Write → ThreatState
  | .signal t type => st.record cfg t type
  | .setManualLevel t level => st.setManualLevel level t
  | .clearManualLevel t₁ t₂ => st.clearManualLevel cfg t₁ t₂

variable {cfg : PolicyConfig} {st st₀ : ThreatState} {now now' : ℕ}

theorem ThreatWorld.step_now (cfg : PolicyConfig) (w : ThreatWorld) (op : ThreatOp) :
    (w.step cfg op).now = w.now + op.elapsed := by
  cases op with
  | signal => rfl
  | currentChallengeThreshold => rfl
  | currentDenyThreshold => rfl
  | snapshot => exact Nat.add_assoc _ _ _
  | setManualLevel => rfl
  | clearManualLevel => exact Nat.add_assoc _ _ _

/-- The same signals and override; the same level too, unless the cooldown gate is open. -/
structure Sync (cfg : PolicyConfig) (st st₀ : ThreatState) (now : ℕ) : Prop where
  same : ThreatState.Untouched st₀ st
  level : ¬ ThreatState.GateOpen cfg st now → st.level = st₀.level

namespace Sync

theorem cool (h : Sync cfg st st₀ now) (hle : now ≤ now') :
    Sync cfg (st.maybeCooldown cfg now') st₀ now' := by
  have hcool := ThreatState.maybeCooldown_untouched cfg st now'
  refine ⟨h.same.trans hcool, fun hclosed => ?_⟩
  have hclosed' : ¬ ThreatState.GateOpen cfg st now' := by
    intro hopen
    exact hclosed ⟨hcool.manualOverride.trans hopen.1, hcool.lastSignalAt ▸ hopen.2⟩
  rw [ThreatState.maybeCooldown_of_closed hclosed']
  exact h.level fun hopen => hclosed' ⟨hopen.1, hopen.2.trans hle⟩

/-- Two recomputations from the same events. -/
theorem recompute (h : ThreatState.Untouched st₀ st) (hnone : st.manualOverride = none) :
    ThreatState.Untouched (st₀.recomputeLevel cfg now) (st.recomputeLevel cfg now) ∧
      (st.recomputeLevel cfg now).level = (st₀.recomputeLevel cfg now).level := by
  have hnone₀ : st₀.manualOverride = none := h.manualOverride ▸ hnone
  have hevict : (st.evict cfg now).events = (st₀.evict cfg now).events := by
    unfold ThreatState.evict
    rw [h.events]
  obtain ⟨hevents, hoverride, hsignal⟩ := @ThreatState.recomputeLevel_events cfg st now hnone
  obtain ⟨hevents₀, hoverride₀, hsignal₀⟩ := @ThreatState.recomputeLevel_events cfg st₀ now hnone₀
  refine ⟨⟨?_, ?_, ?_⟩, ?_⟩
  · rw [hevents, hevents₀, hevict]
  · rw [hoverride, hoverride₀]
    exact h.manualOverride
  · rw [hsignal, hsignal₀]
    exact h.lastSignalAt
  · rw [ThreatState.recomputeLevel_level hnone, ThreatState.recomputeLevel_level hnone₀]
    unfold ThreatState.candidates ThreatState.countByType
    rw [hevict]

theorem signal (h : Sync cfg st st₀ now) (type : SignalType) :
    Sync cfg (st.record cfg now' type) (st₀.record cfg now' type) now' := by
  -- the state that `record` hands to `recomputeLevel`
  have hpushed : ∀ st st₀ : ThreatState, ThreatState.Untouched st₀ st → ∃ p p₀ : ThreatState,
      st.record cfg now' type = p.recomputeLevel cfg now' ∧
      st₀.record cfg now' type = p₀.recomputeLevel cfg now' ∧ ThreatState.Untouched p₀ p ∧
      p.manualOverride = st.manualOverride ∧ p.level = st.level ∧ p₀.level = st₀.level := by
    intro st st₀ h
    refine ⟨_, _, rfl, rfl, ⟨?_, h.manualOverride, rfl⟩, rfl, rfl, rfl⟩
    simp only [ThreatState.evict, h.events]
  obtain ⟨p, p₀, hp, hp₀, hsame, hoverride, hlevel, hlevel₀⟩ := hpushed st st₀ h.same
  rw [hp, hp₀]
  by_cases hnone : p.manualOverride = none
  · obtain ⟨huntouched, hlevels⟩ := recompute hsame hnone
    exact ⟨huntouched, fun _ => hlevels⟩
  · have hnone₀ : p₀.manualOverride ≠ none := hsame.manualOverride ▸ hnone
    rw [ThreatState.recomputeLevel_of_override hnone,
      ThreatState.recomputeLevel_of_override hnone₀]
    refine ⟨hsame, fun _ => ?_⟩
    rw [hlevel, hlevel₀]
    exact h.level fun hopen => hnone (hoverride.trans hopen.1)

theorem setManualLevel (h : Sync cfg st st₀ now) (level : ThreatLevel) :
    Sync cfg (st.setManualLevel level now') (st₀.setManualLevel level now') now' := by
  have hset : ∀ st : ThreatState,
      ThreatState.Untouched { st with manualOverride := some level }
        (st.setManualLevel level now') ∧ (st.setManualLevel level now').level = level := by
    intro st
    unfold ThreatState.setManualLevel
    dsimp only
    split_ifs with heq
    · exact ⟨.refl _, heq⟩
    · exact ⟨ThreatState.transitionTo_untouched _ _ _ _, ThreatState.transitionTo_level _ _ _ _⟩
  obtain ⟨hsame, hlevel⟩ := hset st
  obtain ⟨hsame₀, hlevel₀⟩ := hset st₀
  refine ⟨⟨?_, ?_, ?_⟩, fun _ => hlevel.trans hlevel₀.symm⟩
  · exact (hsame.events.trans h.same.events).trans hsame₀.events.symm
  · exact hsame.manualOverride.trans hsame₀.manualOverride.symm
  · exact (hsame.lastSignalAt.trans h.same.lastSignalAt).trans hsame₀.lastSignalAt.symm

theorem clearManualLevel (h : Sync cfg st st₀ now) {t₁ t₂ : ℕ} :
    Sync cfg (st.clearManualLevel cfg t₁ t₂) (st₀.clearManualLevel cfg t₁ t₂) t₂ := by
  have hcool : ∀ st : ThreatState, ThreatState.Untouched { st with manualOverride := none }
      (ThreatState.maybeCooldown cfg { st with manualOverride := none } t₁) :=
    fun st => ThreatState.maybeCooldown_untouched _ _ _
  have hsame : ThreatState.Untouched
      (ThreatState.maybeCooldown cfg { st₀ with manualOverride := none } t₁)
      (ThreatState.maybeCooldown cfg { st with manualOverride := none } t₁) :=
    ⟨((hcool st).events.trans h.same.events).trans (hcool st₀).events.symm,
      (hcool st).manualOverride.trans (hcool st₀).manualOverride.symm,
      ((hcool st).lastSignalAt.trans h.same.lastSignalAt).trans (hcool st₀).lastSignalAt.symm⟩
  obtain ⟨huntouched, hlevels⟩ := recompute hsame (hcool st).manualOverride
  exact ⟨huntouched, fun _ => hlevels⟩

theorem step {w : ThreatWorld} (h : Sync cfg w.svc st₀ w.now) (op : ThreatOp) :
    Sync cfg (w.step cfg op).svc ((op.write w.now).foldl (Write.apply cfg) st₀)
      (w.step cfg op).now := by
  cases op with
  | signal dt type => exact h.signal type
  | currentChallengeThreshold dt => exact h.cool (Nat.le_add_right _ _)
  | currentDenyThreshold dt => exact h.cool (Nat.le_add_right _ _)
  | snapshot dt₁ dt₂ => exact (h.cool (Nat.le_add_right _ _)).cool (Nat.le_add_right _ _)
  | setManualLevel dt level => exact h.setManualLevel level
  | clearManualLevel dt₁ dt₂ => exact h.clearManualLevel

end Sync

theorem sync_of_run {w : ThreatWorld} (ops : List ThreatOp) (h : Sync cfg w.svc st₀ w.now) :
    let w' := runSteps (ThreatWorld.step cfg) w ops
    Sync cfg w'.svc ((writes w.now ops).foldl (Write.apply cfg) st₀) w'.now := by
  induction ops generalizing w st₀ with
  | nil => exact h
  | cons op ops ih =>
    rw [writes, List.foldl_append, ← ThreatWorld.step_now cfg]
    exact ih (h.step op)

/-- A read at `now` takes no rung. -/
def ThreatState.Rests (cfg : PolicyConfig) (st : ThreatState) (now : ℕ) : Prop :=
  ¬ GateOpen cfg st now ∨ st.level = .normal ∨ now < st.lastTransitionAt + cfg.threatCooldownMs

/-- No reading of the operation takes a rung, if the operation is a read. -/
def ReadsAtRest (cfg : PolicyConfig) (w : ThreatWorld) : ThreatOp → Prop
  | .currentChallengeThreshold dt | .currentDenyThreshold dt => w.svc.Rests cfg (w.now + dt)
  | .snapshot dt₁ dt₂ => w.svc.Rests cfg (w.now + dt₁) ∧ w.svc.Rests cfg (w.now + dt₁ + dt₂)
  | .signal _ _ | .setManualLevel _ _ | .clearManualLevel _ _ => True

theorem coolDown_normal (h : st.level = .normal) (steps : ℕ) :
    ThreatState.coolDown now steps st = st := by
  cases steps with
  | zero => rfl
  | succ steps => simp only [ThreatState.coolDown, h]

theorem maybeCooldown_of_rests (h : st.Rests cfg now) : st.maybeCooldown cfg now = st := by
  by_cases hopen : ThreatState.GateOpen cfg st now
  · rw [ThreatState.maybeCooldown_of_open hopen]
    rcases h with hclosed | hnormal | hearly
    · exact absurd hopen hclosed
    · exact coolDown_normal hnormal _
    · rcases Nat.eq_zero_or_pos cfg.threatCooldownMs with hzero | hpos
      · rw [hzero, Nat.div_zero]
        rfl
      · rw [Nat.div_eq_of_lt (by omega)]
        rfl
  · exact ThreatState.maybeCooldown_of_closed hopen

theorem maybeCooldown_lower (hc : 0 < cfg.threatCooldownMs) (h : ¬ st.Rests cfg now) :
    (st.maybeCooldown cfg now).level.order < st.level.order := by
  obtain ⟨hopen, hnormal, hlate⟩ : ThreatState.GateOpen cfg st now ∧ st.level ≠ .normal ∧
      st.lastTransitionAt + cfg.threatCooldownMs ≤ now := by
    simpa only [ThreatState.Rests, not_or, not_not, not_lt] using h
  rw [ThreatState.maybeCooldown_of_open hopen, (ThreatState.coolDown_spec now _ st).2.1]
  have hsteps : 1 ≤ (now - st.lastTransitionAt) / cfg.threatCooldownMs :=
    (Nat.one_le_div_iff hc).mpr (by omega)
  have hpos : st.level.order ≠ 0 := fun hzero => hnormal (ThreatLevel.order_inj hzero)
  omega

/-- A run whose reads take no rung is the run of its writes. -/
theorem svc_of_rest {w : ThreatWorld} {ops : List ThreatOp}
    (h : Along (ThreatWorld.step cfg) (ReadsAtRest cfg) w ops) :
    (runSteps (ThreatWorld.step cfg) w ops).svc =
      (writes w.now ops).foldl (Write.apply cfg) w.svc := by
  induction ops generalizing w with
  | nil => rfl
  | cons op ops ih =>
    obtain ⟨hop, hops⟩ := h
    have hstep : (w.step cfg op).svc = (op.write w.now).foldl (Write.apply cfg) w.svc := by
      cases op with
      | signal dt type => rfl
      | currentChallengeThreshold dt => exact maybeCooldown_of_rests hop
      | currentDenyThreshold dt => exact maybeCooldown_of_rests hop
      | snapshot dt₁ dt₂ =>
        have hfirst := maybeCooldown_of_rests hop.1
        have hsecond := maybeCooldown_of_rests hop.2
        show ((w.svc.maybeCooldown cfg (w.now + dt₁)).maybeCooldown cfg (w.now + dt₁ + dt₂)) = w.svc
        rw [hfirst, hsecond]
      | setManualLevel dt level => rfl
      | clearManualLevel dt₁ dt₂ => rfl
    rw [runSteps_cons, ih hops, writes, List.foldl_append, ThreatWorld.step_now, hstep]

/-- In two runs of a validated service with the same signals, overrides and clears at the same
times, thresholds read at the same later time agree while an override is set, for one cooldown
window after the last signal, and at any time if no read of either run takes a rung. -/
theorem reads_of_run (cfg : ValidPolicyConfig) (t₀ : ℕ) (ops ops' : List ThreatOp)
    (hsame : writes t₀ ops = writes t₀ ops') :
    let step := ThreatWorld.step cfg.toPolicyConfig
    let w := runSteps step (.start t₀) ops
    let w' := runSteps step (.start t₀) ops'
    ∀ t, w.now ≤ t → w'.now ≤ t →
      (w.svc.manualOverride ≠ none ∨ t < w.svc.lastSignalAt + cfg.threatCooldownMs ∨
        Along step (ReadsAtRest cfg.toPolicyConfig) (.start t₀) ops ∧
          Along step (ReadsAtRest cfg.toPolicyConfig) (.start t₀) ops') →
      (w.svc.currentChallengeThreshold cfg.toPolicyConfig t).1 =
          (w'.svc.currentChallengeThreshold cfg.toPolicyConfig t).1 ∧
        (w.svc.currentDenyThreshold cfg.toPolicyConfig t).1 =
          (w'.svc.currentDenyThreshold cfg.toPolicyConfig t).1 := by
  intro step w w' t ht ht' hcase
  have hstart : Sync cfg.toPolicyConfig (ThreatWorld.start t₀).svc (ThreatState.start t₀)
      (ThreatWorld.start t₀).now := ⟨.refl _, fun _ => rfl⟩
  have hw : Sync cfg.toPolicyConfig w.svc _ w.now := sync_of_run ops hstart
  have hw' : Sync cfg.toPolicyConfig w'.svc _ w'.now := sync_of_run ops' hstart
  have hwrites : writes (ThreatWorld.start t₀).now ops = writes (ThreatWorld.start t₀).now ops' :=
    hsame
  rw [← hwrites] at hw'
  -- the gate is closed at `t` in both runs, so it was all along since the last write
  have hclosed : ¬ ThreatState.GateOpen cfg.toPolicyConfig w.svc t →
      (w.svc.maybeCooldown cfg.toPolicyConfig t).effectiveLevel =
        (w'.svc.maybeCooldown cfg.toPolicyConfig t).effectiveLevel := by
    intro hgate
    have hoverride := hw'.same.manualOverride.trans hw.same.manualOverride.symm
    have hsignal := hw'.same.lastSignalAt.trans hw.same.lastSignalAt.symm
    have hgate' : ¬ ThreatState.GateOpen cfg.toPolicyConfig w'.svc t :=
      fun hopen => hgate ⟨hoverride ▸ hopen.1, hsignal ▸ hopen.2⟩
    rw [ThreatState.maybeCooldown_of_closed hgate, ThreatState.maybeCooldown_of_closed hgate']
    have hlevel := hw.level fun hopen => hgate ⟨hopen.1, hopen.2.trans ht⟩
    have hlevel' := hw'.level fun hopen => hgate' ⟨hopen.1, hopen.2.trans ht'⟩
    unfold ThreatState.effectiveLevel
    rw [hoverride, hlevel, hlevel']
  have heffective : (w.svc.maybeCooldown cfg.toPolicyConfig t).effectiveLevel =
      (w'.svc.maybeCooldown cfg.toPolicyConfig t).effectiveLevel := by
    rcases hcase with hset | hearly | ⟨hrest, hrest'⟩
    · exact hclosed fun hopen => hset hopen.1
    · exact hclosed fun hopen => absurd hopen.2 (not_le.mpr hearly)
    · have heq : w.svc = w'.svc := by
        rw [svc_of_rest hrest, svc_of_rest hrest', hwrites]
      rw [heq]
  unfold ThreatState.currentChallengeThreshold ThreatState.currentDenyThreshold
  dsimp only
  rw [heffective]
  exact ⟨rfl, rfl⟩

/-- Reads between two denials, and a snapshot within the first second. -/
theorem reads_of_run_busy :
    let step := ThreatWorld.step quickCooldown.toPolicyConfig
    let w := runSteps step (.start 0) [.signal 0 .policyDeny, .signal 300 .policyDeny]
    let w' := runSteps step (.start 0)
      [.signal 0 .policyDeny, .currentDenyThreshold 100, .signal 200 .policyDeny, .snapshot 500 0]
    (w.svc.currentDenyThreshold quickCooldown.toPolicyConfig 1000).1 =
      (w'.svc.currentDenyThreshold quickCooldown.toPolicyConfig 1000).1 :=
  (reads_of_run quickCooldown 0 _ _ (by decide) 1000 (by decide) (by decide)
    (.inr (.inl (by decide)))).2

/-- Critical at 0. A read at 1999 takes one rung and starts a new window, so at 2000 the level is
Elevated; without it, two windows have passed. -/
theorem read_changes_ladder :
    let step := ThreatWorld.step quickCooldown.toPolicyConfig
    let ops := [ThreatOp.signal 0 .policyDeny, .signal 0 .policyDeny]
    let w := runSteps step (.start 0) ops
    let w' := runSteps step (.start 0) (ops ++ [.currentDenyThreshold 1999])
    writes 0 ops = writes 0 (ops ++ [.currentDenyThreshold 1999]) ∧
      (w.svc.currentDenyThreshold quickCooldown.toPolicyConfig 2000).1 = 4 / 5 ∧
      (w'.svc.currentDenyThreshold quickCooldown.toPolicyConfig 2000).1 = 3 / 5 := by
  exact ⟨by decide, by decide +kernel, by decide +kernel⟩

end ZTG
