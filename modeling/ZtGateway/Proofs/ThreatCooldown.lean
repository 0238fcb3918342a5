import ZtGateway.Proofs.ThreatBurst

/-! The cooldown between signals. The gate opens one window after the last signal; how many
rungs a read then takes is counted from the last transition. A read that takes none changes
nothing, and what a read has changed is forgotten at the next signal, override or clear. -/

namespace ZTG

theorem ThreatLevel.order_inj {a b : ThreatLevel} (h : a.order = b.order) : a = b := by
  cases a <;> cases b <;> first | rfl | cases h

def ThreatOp.isRead : ThreatOp → Bool
  | .currentChallengeThreshold _ | .currentDenyThreshold _ | .snapshot _ _ => true
  | .signal _ _ | .setManualLevel _ _ | .clearManualLevel _ _ => false

variable {cfg : PolicyConfig} {st : ThreatState} {L : ThreatLevel} {s τ now now' : ℕ}

/-- The state after reads only, since a signal at `s` left the level at `L` with the last
transition at `τ`. -/
structure Cooling (cfg : PolicyConfig) (L : ThreatLevel) (s τ : ℕ) (st : ThreatState) (now : ℕ) :
    Prop where
  override : st.manualOverride = none
  signal : st.lastSignalAt = s
  past : st.lastTransitionAt ≤ now
  held : (st.level = L ∧ st.lastTransitionAt = τ) ∨
    (s + cfg.threatCooldownMs ≤ st.lastTransitionAt ∧
      L.order ≤ st.level.order + (st.lastTransitionAt - τ) / cfg.threatCooldownMs ∧
      (τ = s ∨ L ≠ .critical →
        L.order ≤ st.level.order + (st.lastTransitionAt - s) / cfg.threatCooldownMs))

/-- Whole windows before a point and after it are whole windows. -/
theorem windows_add {c a b d : ℕ} (hab : a ≤ b) (hbd : b ≤ d) :
    (d - b) / c + (b - a) / c ≤ (d - a) / c := by
  have hsum : d - b + (b - a) = d - a := by omega
  rw [← hsum]
  exact Nat.div_add_div_le_add_div

theorem ThreatLevel.order_le_one (h : L ≠ .critical) : L.order ≤ 1 := by
  cases L with
  | normal => exact Nat.zero_le 1
  | elevated => exact le_rfl
  | critical => exact absurd rfl h

theorem Cooling.cool (hc : 0 < cfg.threatCooldownMs) (hτ : τ ≤ s) (h : Cooling cfg L s τ st now)
    (hle : now ≤ now') : Cooling cfg L s τ (st.maybeCooldown cfg now') now' := by
  by_cases hopen : ThreatState.GateOpen cfg st now'
  · have hidle : s + cfg.threatCooldownMs ≤ now' := h.signal ▸ hopen.2
    rw [ThreatState.maybeCooldown_of_open hopen]
    obtain ⟨hsame, horder, htime⟩ := ThreatState.coolDown_spec now'
      ((now' - st.lastTransitionAt) / cfg.threatCooldownMs) st
    have hpast := h.past.trans hle
    have hheld := h.held
    generalize ThreatState.coolDown now'
      ((now' - st.lastTransitionAt) / cfg.threatCooldownMs) st = st' at hsame horder htime ⊢
    by_cases hstep : (now' - st.lastTransitionAt) / cfg.threatCooldownMs = 0 ∨ st.level = .normal
    · -- no rung is due, or none is left
      rw [if_pos hstep] at htime
      have hlevel : st'.level = st.level := by
        apply ThreatLevel.order_inj
        rcases hstep with hzero | hnormal
        · rw [horder, hzero, Nat.sub_zero]
        · rw [horder, hnormal]
          simp [ThreatLevel.order]
      refine ⟨hsame.manualOverride.trans h.override, hsame.lastSignalAt.trans h.signal,
        htime ▸ hpast, ?_⟩
      rw [hlevel, htime]
      exact hheld
    · rw [if_neg hstep] at htime
      refine ⟨hsame.manualOverride.trans h.override, hsame.lastSignalAt.trans h.signal,
        htime.le, Or.inr ⟨htime ▸ hidle, ?_, ?_⟩⟩
      · rw [htime]
        rcases hheld with ⟨rfl, rfl⟩ | ⟨hafter, hbound, -⟩
        · omega
        · have hwindows := @windows_add cfg.threatCooldownMs τ st.lastTransitionAt now'
            (by omega) hpast
          omega
      · intro hcase
        rw [htime]
        rcases hheld with ⟨rfl, rfl⟩ | ⟨hafter, -, hbound⟩
        · rcases hcase with rfl | hne
          · omega
          · have hone : 1 ≤ (now' - s) / cfg.threatCooldownMs :=
              (Nat.one_le_div_iff hc).mpr (by omega)
            have := ThreatLevel.order_le_one hne
            omega
        · have hwindows := @windows_add cfg.threatCooldownMs s st.lastTransitionAt now'
            (by omega) hpast
          have := hbound hcase
          omega
  · rw [ThreatState.maybeCooldown_of_closed hopen]
    exact ⟨h.override, h.signal, h.past.trans hle, h.held⟩

theorem Cooling.read {w : ThreatWorld} (hc : 0 < cfg.threatCooldownMs) (hτ : τ ≤ s)
    (h : Cooling cfg L s τ w.svc w.now) {op : ThreatOp} (hop : op.isRead = true) :
    Cooling cfg L s τ (w.step cfg op).svc (w.step cfg op).now := by
  cases op with
  | currentChallengeThreshold dt => exact h.cool hc hτ (Nat.le_add_right _ _)
  | currentDenyThreshold dt => exact h.cool hc hτ (Nat.le_add_right _ _)
  | snapshot dt₁ dt₂ =>
    exact (h.cool hc hτ (Nat.le_add_right _ _)).cool hc hτ (Nat.le_add_right _ _)
  | signal => cases hop
  | setManualLevel => cases hop
  | clearManualLevel => cases hop

theorem cooling_of_reads {w : ThreatWorld} (hc : 0 < cfg.threatCooldownMs) (hτ : τ ≤ s)
    {reads : List ThreatOp} (hreads : ∀ op ∈ reads, op.isRead = true)
    (h : Cooling cfg L s τ w.svc w.now) :
    let w' := runSteps (ThreatWorld.step cfg) w reads
    Cooling cfg L s τ w'.svc w'.now := by
  induction reads generalizing w with
  | nil => exact h
  | cons op reads ih =>
    exact ih (fun op hop => hreads op (List.mem_cons_of_mem _ hop))
      (h.read hc hτ (hreads op List.mem_cons_self))

theorem ValidPolicyConfig.cooldown_pos (cfg : ValidPolicyConfig) : 0 < cfg.threatCooldownMs := by
  have hfields := cfg.fields
  simp only [PolicyConfig.fieldsValid, PolicyConfig.atLeast, Bool.and_eq_true, List.all_cons,
    decide_eq_true_eq] at hfields
  omega

/-- In every run of a validated service, since a signal that found no override, and whatever is
read after it: the level does not fall for one cooldown window; it falls at most one rung for each
window since the signal, if the signal was a transition or left the level below Critical; and
always at most one rung for each window since the last transition. -/
theorem cooldown_of_run (cfg : ValidPolicyConfig) (t₀ : ℕ) (ops : List ThreatOp) (dt : ℕ)
    (type : SignalType) (reads : List ThreatOp) (hreads : ∀ op ∈ reads, op.isRead = true)
    (hnone : (runSteps (ThreatWorld.step cfg.toPolicyConfig) (.start t₀)
      (ops ++ [.signal dt type])).svc.manualOverride = none) :
    let w := runSteps (ThreatWorld.step cfg.toPolicyConfig) (.start t₀) (ops ++ [.signal dt type])
    let w' := runSteps (ThreatWorld.step cfg.toPolicyConfig) w reads
    ∀ t, w'.now ≤ t →
      (t < w.now + cfg.threatCooldownMs → w'.svc.level = w.svc.level) ∧
      (w.svc.lastTransitionAt = w.now ∨ w.svc.level ≠ .critical →
        w.svc.level.order ≤ w'.svc.level.order + (t - w.now) / cfg.threatCooldownMs) ∧
      w.svc.level.order ≤
        w'.svc.level.order + (t - w.svc.lastTransitionAt) / cfg.threatCooldownMs := by
  intro w w' t ht
  have hladder : Ladder cfg.toPolicyConfig w.svc w.now :=
    Ladder.run _ t₀ (ops ++ [.signal dt type])
  have hsignal : w.svc.lastSignalAt = w.now := by
    have hw : w = ThreatWorld.step cfg.toPolicyConfig
        (runSteps (ThreatWorld.step cfg.toPolicyConfig) (.start t₀) ops) (.signal dt type) :=
      runSteps_snoc ops _
    rw [hw]
    exact (ThreatState.record_frame _ _ _ type).2
  have hstart : Cooling cfg.toPolicyConfig w.svc.level w.now w.svc.lastTransitionAt w.svc w.now :=
    ⟨hnone, hsignal, hladder.lastTransitionAt, .inl ⟨rfl, rfl⟩⟩
  have hcooled : Cooling cfg.toPolicyConfig w.svc.level w.now w.svc.lastTransitionAt w'.svc
      w'.now := cooling_of_reads cfg.cooldown_pos hladder.lastTransitionAt hreads hstart
  have hpast : w'.svc.lastTransitionAt ≤ t := hcooled.past.trans ht
  have hdiv : ∀ a, (w'.svc.lastTransitionAt - a) / cfg.threatCooldownMs ≤
      (t - a) / cfg.threatCooldownMs :=
    fun a => Nat.div_le_div_right (Nat.sub_le_sub_right hpast a)
  rcases hcooled.held with ⟨hlevel, -⟩ | ⟨hafter, htransition, hwindow⟩
  · rw [hlevel]
    exact ⟨fun _ => rfl, fun _ => Nat.le_add_right _ _, Nat.le_add_right _ _⟩
  · refine ⟨fun hlt => ?_, fun hcase => ?_, ?_⟩
    · exact absurd (hafter.trans hpast) (not_le.mpr hlt)
    · exact (hwindow hcase).trans (Nat.add_le_add_left (hdiv _) _)
    · exact htransition.trans (Nat.add_le_add_left (hdiv _) _)

/-- a cooldown of one second -/
def quickCooldown : ValidPolicyConfig :=
  { samplePolicy 10000 1000 with fields := by decide +kernel, cross := by decide +kernel }

/-- Critical at 0, a read at 2500: two windows since the transition, two rungs. -/
theorem cooldown_of_run_idle :
    let step := ThreatWorld.step quickCooldown.toPolicyConfig
    let w := runSteps step (.start 0) [.signal 0 .policyDeny, .signal 0 .policyDeny]
    let w' := runSteps step w [.currentDenyThreshold 2500]
    w.svc.level = .critical ∧ w'.svc.level = .normal ∧
      w.svc.level.order ≤ w'.svc.level.order + (2500 - 0) / 1000 := by
  refine ⟨by decide, by decide, ?_⟩
  exact (cooldown_of_run quickCooldown 0 [.signal 0 .policyDeny] 0 .policyDeny
    [.currentDenyThreshold 2500] (by decide) rfl 2500 le_rfl).2.1 (.inl rfl)

/-- Critical since 0 and a signal at 1000 that changes nothing: one window after it, the read at
2000 takes two rungs. -/
theorem cooldown_two_rungs :
    let step := ThreatWorld.step quickCooldown.toPolicyConfig
    let w := runSteps step (.start 0)
      [.signal 0 .policyDeny, .signal 0 .policyDeny, .signal 1000 .policyDeny]
    let w' := runSteps step w [.currentDenyThreshold 1000]
    w.svc.manualOverride = none ∧ w.now = 1000 ∧ w'.now = 2000 ∧ w.svc.level = .critical ∧
      w'.svc.level = .normal ∧
      ¬ w.svc.level.order ≤
        w'.svc.level.order + (w'.now - w.now) / quickCooldown.threatCooldownMs := by
  refine ⟨rfl, rfl, rfl, by decide, by decide, by decide⟩

end ZTG
