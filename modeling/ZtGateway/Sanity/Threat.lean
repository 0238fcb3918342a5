import ZtGateway.Spec.Threat

/-! What the operations of `ThreatEscalationService` keep. Every operation is made of
three moves: events leave at the front or enter at the back, the level changes
through `transitionTo`, and the override is set or cleared. -/

namespace ZTG

/-- `ts` leads from `a` to `b`, one transition after another, and no transition stays where it is. -/
def IsPath : ThreatLevel → List Transition → ThreatLevel → Prop
  | a, [], b => a = b
  | a, t :: ts, b => t.from_ = a ∧ t.from_ ≠ t.to_ ∧ IsPath t.to_ ts b

theorem IsPath.snoc {a b : ThreatLevel} {ts : List Transition} {t : Transition}
    (h : IsPath a ts b) (hfrom : t.from_ = b) (hne : t.from_ ≠ t.to_) :
    IsPath a (ts ++ [t]) t.to_ := by
  induction ts generalizing a with
  | nil => exact ⟨hfrom.trans h.symm, hne, rfl⟩
  | cons t' ts ih => exact ⟨h.1, h.2.1, ih h.2.2⟩

/-- The ladder at time `now`. -/
structure Ladder (cfg : PolicyConfig) (st : ThreatState) (now : ℕ) : Prop where
  override : ∀ l, st.manualOverride = some l → st.level = l
  gauge : ∀ l, st.threatLevel l = if l = st.level then 1 else 0
  path : IsPath .normal st.transitions st.level
  cooldown : ∀ t ∈ st.transitions, t.cause = .cooldown → t.from_.order = t.to_.order + 1
  sorted : st.events.Pairwise fun a b => a.ts ≤ b.ts
  past : ∀ e ∈ st.events, e.ts ≤ now
  bounded : st.events.length ≤ cfg.threatWindowMaxEvents
  lastTransitionAt : st.lastTransitionAt ≤ now
  lastSignalAt : st.lastSignalAt ≤ now

namespace Ladder

variable {cfg : PolicyConfig} {st : ThreatState} {now now' : ℕ}

theorem start (cfg : PolicyConfig) (now : ℕ) : Ladder cfg (.start now) now where
  override := by simp [ThreatState.start]
  gauge _ := rfl
  path := rfl
  cooldown := by simp [ThreatState.start]
  sorted := List.Pairwise.nil
  past := by simp [ThreatState.start]
  bounded := Nat.zero_le _
  lastTransitionAt := le_rfl
  lastSignalAt := le_rfl

theorem mono (h : Ladder cfg st now) (hle : now ≤ now') : Ladder cfg st now' where
  override := h.override
  gauge := h.gauge
  path := h.path
  cooldown := h.cooldown
  sorted := h.sorted
  past e he := (h.past e he).trans hle
  bounded := h.bounded
  lastTransitionAt := h.lastTransitionAt.trans hle
  lastSignalAt := h.lastSignalAt.trans hle

/-- Fewer events, in the same order. -/
theorem sublist (h : Ladder cfg st now) {events : List WindowEvent}
    (hs : events.Sublist st.events) : Ladder cfg { st with events := events } now where
  override := h.override
  gauge := h.gauge
  path := h.path
  cooldown := h.cooldown
  sorted := h.sorted.sublist hs
  past e he := h.past e (hs.subset he)
  bounded := hs.length_le.trans h.bounded
  lastTransitionAt := h.lastTransitionAt
  lastSignalAt := h.lastSignalAt

theorem evict (h : Ladder cfg st now) (t : ℕ) : Ladder cfg (st.evict cfg t) now :=
  h.sublist (List.dropWhile_sublist _)

/-- One transition, with the override `o` that it has to agree with. -/
theorem transition (h : Ladder cfg st now) {next : ThreatLevel} {cause : TransitionCause}
    {o : Option ThreatLevel} (hne : st.level ≠ next) (ho : ∀ l, o = some l → next = l)
    (hcool : cause = .cooldown → st.level.order = next.order + 1) (hle : now ≤ now') :
    Ladder cfg ({ st with manualOverride := o }.transitionTo next now' cause) now' := by
  have ht : { st with manualOverride := o }.transitionTo next now' cause =
      { st with manualOverride := o, level := next, lastTransitionAt := now',
                transitions := st.transitions ++ [⟨st.level, next, cause⟩],
                threatLevel := setThreatLevel next } := if_neg fun hc => hne hc.1
  rw [ht]
  refine ⟨ho, fun l => rfl, h.path.snoc rfl hne, fun t hmem hc => ?_, h.sorted,
    fun e he => (h.past e he).trans hle, h.bounded, le_rfl, h.lastSignalAt.trans hle⟩
  rcases List.mem_append.mp hmem with hmem | hmem
  · exact h.cooldown t hmem hc
  · obtain rfl := List.mem_singleton.mp hmem
    exact hcool hc

/-- A transition of the service itself, which needs that no override is set. -/
theorem automatic (h : Ladder cfg st now) (hnone : st.manualOverride = none) {next : ThreatLevel}
    {cause : TransitionCause} (hne : st.level ≠ next)
    (hcool : cause = .cooldown → st.level.order = next.order + 1) (hle : now ≤ now') :
    Ladder cfg (st.transitionTo next now' cause) now' :=
  h.transition hne (by simp [hnone]) hcool hle

theorem coolDown (h : Ladder cfg st now) (hnone : st.manualOverride = none) (steps : ℕ) :
    Ladder cfg (ThreatState.coolDown now steps st) now := by
  induction steps generalizing st with
  | zero => exact h
  | succ steps ih =>
    unfold ThreatState.coolDown
    cases hl : st.level with
    | critical =>
      refine ih (h.automatic hnone (by simp [hl]) (fun _ => by rw [hl]; rfl) le_rfl) ?_
      simp [ThreatState.transitionTo, hl, hnone]
    | elevated =>
      refine ih (h.automatic hnone (by simp [hl]) (fun _ => by rw [hl]; rfl) le_rfl) ?_
      simp [ThreatState.transitionTo, hl, hnone]
    | normal => exact h

theorem maybeCooldown (h : Ladder cfg st now) (hle : now ≤ now') :
    Ladder cfg (st.maybeCooldown cfg now') now' := by
  unfold ThreatState.maybeCooldown
  split_ifs with ho
  · exact h.mono hle
  · exact h.mono hle
  · exact (h.mono hle).coolDown (by simpa using ho) _

theorem recomputeLevel (h : Ladder cfg st now) (hle : now ≤ now') :
    Ladder cfg (st.recomputeLevel cfg now') now' := by
  unfold ThreatState.recomputeLevel
  split_ifs with ho
  · exact h.mono hle
  · have hnone : (st.evict cfg now').manualOverride = none := by
      simpa [ThreatState.evict] using ho
    dsimp only
    split_ifs with hne
    · exact (h.evict now').automatic hnone (Ne.symm hne) (by simp) hle
    · exact (h.evict now').mono hle

/-- A new event at the back, and as many dropped at the front as the cap asks for. -/
theorem push (h : Ladder cfg st now) (hle : now ≤ now') {type : SignalType}
    {events : List WindowEvent} (hevents : events = st.events ++ [⟨now', type⟩]) :
    let keep := events.drop (events.length - cfg.threatWindowMaxEvents)
    Ladder cfg { st with events := keep } now' := by
  have hsub := List.drop_sublist (events.length - cfg.threatWindowMaxEvents) events
  have hpast : ∀ e ∈ events, e.ts ≤ now' := by
    intro e he
    rw [hevents] at he
    rcases List.mem_append.mp he with he | he
    · exact (h.past e he).trans hle
    · rw [List.mem_singleton.mp he]
  have hsorted : events.Pairwise fun a b => a.ts ≤ b.ts := by
    rw [hevents]
    refine List.pairwise_append.mpr ⟨h.sorted, List.pairwise_singleton _ _, ?_⟩
    intro a ha b hb
    rw [List.mem_singleton.mp hb]
    exact (h.past a ha).trans hle
  refine ⟨h.override, h.gauge, h.path, h.cooldown, hsorted.sublist hsub,
    fun e he => hpast e (hsub.subset he), ?_, h.lastTransitionAt.trans hle,
    h.lastSignalAt.trans hle⟩
  simp only [List.length_drop]
  omega

theorem signalled (h : Ladder cfg st now) : Ladder cfg { st with lastSignalAt := now } now :=
  ⟨h.override, h.gauge, h.path, h.cooldown, h.sorted, h.past, h.bounded, h.lastTransitionAt,
    le_rfl⟩

theorem record (h : Ladder cfg st now) (hle : now ≤ now') (type : SignalType) :
    Ladder cfg (st.record cfg now' type) now' :=
  (((h.push hle rfl).evict now').signalled).recomputeLevel le_rfl

theorem setManualLevel (h : Ladder cfg st now) (hle : now ≤ now') (level : ThreatLevel) :
    Ladder cfg (st.setManualLevel level now') now' := by
  unfold ThreatState.setManualLevel
  dsimp only
  split_ifs with heq
  · have h' := h.mono hle
    exact ⟨fun l hl => heq.trans (Option.some.inj hl), h'.gauge, h'.path, h'.cooldown, h'.sorted,
      h'.past, h'.bounded, h'.lastTransitionAt, h'.lastSignalAt⟩
  · exact h.transition heq (fun l hl => Option.some.inj hl) (by simp) hle

theorem clearManualLevel (h : Ladder cfg st now) {now₁ now₂ : ℕ} (hle₁ : now ≤ now₁)
    (hle₂ : now₁ ≤ now₂) : Ladder cfg (st.clearManualLevel cfg now₁ now₂) now₂ := by
  have hclear : Ladder cfg { st with manualOverride := none } now :=
    ⟨by simp, h.gauge, h.path, h.cooldown, h.sorted, h.past, h.bounded, h.lastTransitionAt,
      h.lastSignalAt⟩
  exact (hclear.maybeCooldown hle₁).recomputeLevel hle₂

theorem snapshot (h : Ladder cfg st now) {now₁ now₂ : ℕ} (hle₁ : now ≤ now₁)
    (hle₂ : now₁ ≤ now₂) : Ladder cfg (st.snapshot cfg now₁ now₂).2 now₂ :=
  (h.maybeCooldown hle₁).maybeCooldown hle₂

/-- Every operation keeps the ladder, with the clock at its last reading. -/
theorem step {w : ThreatWorld} (h : Ladder cfg w.svc w.now) (op : ThreatOp) :
    Ladder cfg (w.step cfg op).svc (w.step cfg op).now := by
  cases op with
  | signal dt type => exact h.record (Nat.le_add_right _ _) type
  | currentChallengeThreshold dt => exact h.maybeCooldown (Nat.le_add_right _ _)
  | currentDenyThreshold dt => exact h.maybeCooldown (Nat.le_add_right _ _)
  | snapshot dt₁ dt₂ => exact h.snapshot (Nat.le_add_right _ _) (Nat.le_add_right _ _)
  | setManualLevel dt level => exact h.setManualLevel (Nat.le_add_right _ _) level
  | clearManualLevel dt₁ dt₂ =>
    exact h.clearManualLevel (Nat.le_add_right _ _) (Nat.le_add_right _ _)

/-- Every state that is reached is on the ladder. -/
theorem run (cfg : PolicyConfig) (t₀ : ℕ) (ops : List ThreatOp) :
    let w := runSteps (ThreatWorld.step cfg) (.start t₀) ops
    Ladder cfg w.svc w.now :=
  runSteps_keeps (I := fun w : ThreatWorld => Ladder cfg w.svc w.now)
    (fun _ op hw => hw.step op) (Ladder.start _ t₀) ops

end Ladder

/-- Every state a validated service reaches, under a clock that never goes back, is on the
ladder. -/
theorem ladder_of_run (cfg : ValidPolicyConfig) (t₀ : ℕ) (ops : List ThreatOp) :
    let w := runSteps (ThreatWorld.step cfg.toPolicyConfig) (.start t₀) ops
    Ladder cfg.toPolicyConfig w.svc w.now :=
  Ladder.run cfg.toPolicyConfig t₀ ops

namespace ThreatState

variable {cfg : PolicyConfig} {st st' : ThreatState} {now steps : ℕ}

/-- the signals, the override and the time of the last signal are as before -/
structure Untouched (st st' : ThreatState) : Prop where
  events : st'.events = st.events
  manualOverride : st'.manualOverride = st.manualOverride
  lastSignalAt : st'.lastSignalAt = st.lastSignalAt

theorem Untouched.refl (st : ThreatState) : Untouched st st := ⟨rfl, rfl, rfl⟩

theorem Untouched.trans {st'' : ThreatState} (h : Untouched st st') (h' : Untouched st' st'') :
    Untouched st st'' :=
  ⟨h'.events.trans h.events, h'.manualOverride.trans h.manualOverride,
    h'.lastSignalAt.trans h.lastSignalAt⟩

theorem transitionTo_untouched (st : ThreatState) (next : ThreatLevel) (now : ℕ)
    (cause : TransitionCause) : Untouched st (st.transitionTo next now cause) := by
  unfold transitionTo
  split_ifs
  · exact .refl st
  · exact ⟨rfl, rfl, rfl⟩

theorem transitionTo_level (st : ThreatState) (next : ThreatLevel) (now : ℕ)
    (cause : TransitionCause) : (st.transitionTo next now cause).level = next := by
  unfold transitionTo
  split_ifs with h
  · exact h.1
  · rfl

/-- One rung at a time, down to Normal; the transition time is the reading's unless no rung
was left or none was due. -/
theorem coolDown_spec (now steps : ℕ) (st : ThreatState) :
    Untouched st (coolDown now steps st) ∧
      (coolDown now steps st).level.order = st.level.order - steps ∧
      (coolDown now steps st).lastTransitionAt =
        if steps = 0 ∨ st.level = .normal then st.lastTransitionAt else now := by
  induction steps generalizing st with
  | zero => exact ⟨.refl st, rfl, by simp [coolDown]⟩
  | succ steps ih =>
    unfold coolDown
    cases hl : st.level with
    | critical =>
      obtain ⟨hsame, horder, htime⟩ := ih (st.transitionTo .elevated now .cooldown)
      have hlast : (st.transitionTo .elevated now .cooldown).lastTransitionAt = now := by
        simp [transitionTo, hl]
      refine ⟨(transitionTo_untouched st _ now _).trans hsame, ?_, ?_⟩
      · dsimp only
        rw [horder, transitionTo_level]
        simp only [ThreatLevel.order]
        omega
      · dsimp only
        rw [htime, hlast]
        simp
    | elevated =>
      obtain ⟨hsame, horder, htime⟩ := ih (st.transitionTo .normal now .cooldown)
      have hlast : (st.transitionTo .normal now .cooldown).lastTransitionAt = now := by
        simp [transitionTo, hl]
      refine ⟨(transitionTo_untouched st _ now _).trans hsame, ?_, ?_⟩
      · dsimp only
        rw [horder, transitionTo_level]
        simp only [ThreatLevel.order]
        omega
      · dsimp only
        rw [htime, hlast]
        simp
    | normal =>
      refine ⟨.refl st, ?_, by simp⟩
      simp [hl, ThreatLevel.order]

/-- the cooldown gate: no override, and idle for a whole window -/
def GateOpen (cfg : PolicyConfig) (st : ThreatState) (now : ℕ) : Prop :=
  st.manualOverride = none ∧ st.lastSignalAt + cfg.threatCooldownMs ≤ now

theorem maybeCooldown_of_closed (h : ¬ GateOpen cfg st now) : st.maybeCooldown cfg now = st := by
  unfold maybeCooldown
  split_ifs with ho hidle
  · rfl
  · rfl
  · refine absurd ⟨?_, not_lt.mp hidle⟩ h
    simpa using ho

theorem maybeCooldown_of_open (h : GateOpen cfg st now) :
    st.maybeCooldown cfg now =
      coolDown now ((now - st.lastTransitionAt) / cfg.threatCooldownMs) st := by
  unfold maybeCooldown
  rw [if_neg (by simp [h.1]), if_neg (not_lt.mpr h.2)]

theorem maybeCooldown_untouched (cfg : PolicyConfig) (st : ThreatState) (now : ℕ) :
    Untouched st (st.maybeCooldown cfg now) := by
  by_cases h : GateOpen cfg st now
  · rw [maybeCooldown_of_open h]
    exact (coolDown_spec now _ st).1
  · rw [maybeCooldown_of_closed h]
    exact .refl st

/-- Without an override, the level becomes what the events in the window ask for. -/
theorem recomputeLevel_level (h : st.manualOverride = none) :
    (st.recomputeLevel cfg now).level = highest ((st.evict cfg now).candidates cfg) := by
  unfold recomputeLevel
  rw [if_neg (by simp [h])]
  dsimp only
  split_ifs with hne
  · exact transitionTo_level _ _ _ _
  · exact (not_ne_iff.mp hne).symm

theorem recomputeLevel_of_override (h : st.manualOverride ≠ none) :
    st.recomputeLevel cfg now = st := by
  unfold recomputeLevel
  exact if_pos (Option.isSome_iff_ne_none.mpr h)

/-- Events leave the window; nothing else that decides the level changes. -/
theorem recomputeLevel_events (h : st.manualOverride = none) :
    Untouched (st.evict cfg now) (st.recomputeLevel cfg now) := by
  unfold recomputeLevel
  rw [if_neg (by simp [h])]
  dsimp only
  split_ifs
  · exact transitionTo_untouched _ _ _ _
  · exact .refl _

/-- The level is the one its own events ask for. -/
theorem recomputeLevel_candidates (h : st.manualOverride = none) :
    (st.recomputeLevel cfg now).level = highest ((st.recomputeLevel cfg now).candidates cfg) := by
  rw [recomputeLevel_level h]
  unfold candidates countByType
  rw [(recomputeLevel_events h).events]

theorem recomputeLevel_frame (cfg : PolicyConfig) (st : ThreatState) (now : ℕ) :
    (st.recomputeLevel cfg now).manualOverride = st.manualOverride ∧
      (st.recomputeLevel cfg now).lastSignalAt = st.lastSignalAt := by
  by_cases h : st.manualOverride = none
  · have hsame := @recomputeLevel_events cfg st now h
    exact ⟨hsame.manualOverride, hsame.lastSignalAt⟩
  · rw [recomputeLevel_of_override h]
    exact ⟨rfl, rfl⟩

theorem record_frame (cfg : PolicyConfig) (st : ThreatState) (now : ℕ) (type : SignalType) :
    (st.record cfg now type).manualOverride = st.manualOverride ∧
      (st.record cfg now type).lastSignalAt = now := by
  unfold record
  exact recomputeLevel_frame _ _ _

/-- A signal recomputes the level, unless an override is set. -/
theorem record_candidates {type : SignalType} (h : st.manualOverride = none) :
    (st.record cfg now type).level = highest ((st.record cfg now type).candidates cfg) := by
  unfold record
  exact recomputeLevel_candidates h

end ThreatState

/-- The cross-field checks order the thresholds against the levels. -/
theorem ValidPolicyConfig.thresholds_lt (cfg : ValidPolicyConfig) :
    cfg.elevatedChallengeThreshold < cfg.challengeThreshold ∧
      cfg.criticalChallengeThreshold < cfg.elevatedChallengeThreshold ∧
      cfg.elevatedDenyThreshold < cfg.denyThreshold ∧
      cfg.criticalDenyThreshold < cfg.elevatedDenyThreshold := by
  have h := cfg.cross
  unfold PolicyConfig.crossFieldError at h
  split_ifs at h with h₁ h₂ h₃ h₄
  simp only [Bool.not_eq_true', decide_eq_false_iff_not, not_not] at h₁ h₂ h₃ h₄
  exact ⟨h₁, h₂, h₃, h₄⟩

theorem ValidPolicyConfig.challengeAt_lt (cfg : ValidPolicyConfig) {a b : ThreatLevel}
    (h : a.order < b.order) : cfg.challengeAt b < cfg.challengeAt a := by
  obtain ⟨helevated, hcritical, -, -⟩ := cfg.thresholds_lt
  cases a <;> cases b <;> simp [ThreatLevel.order] at h
  · exact helevated
  · exact hcritical.trans helevated
  · exact hcritical

theorem ValidPolicyConfig.denyAt_lt (cfg : ValidPolicyConfig) {a b : ThreatLevel}
    (h : a.order < b.order) : cfg.denyAt b < cfg.denyAt a := by
  obtain ⟨-, -, helevated, hcritical⟩ := cfg.thresholds_lt
  cases a <;> cases b <;> simp [ThreatLevel.order] at h
  · exact helevated
  · exact hcritical.trans helevated
  · exact hcritical

end ZTG
