import ZtGateway.Sanity.Threat

/-! A burst of signals against the capped window. The service sees the last
`threatWindowMaxEvents` signals it received, of all types together, as far as they are inside
the window; what it sees decides the level. -/

namespace ZTG

/-- what an operation adds to the true history of signals -/
def ThreatOp.received (now : ℕ) : ThreatOp → List WindowEvent
  | .signal dt type => [⟨now + dt, type⟩]
  | _ => []

/-- every signal of a run, with the time it was received at -/
def history (cfg : PolicyConfig) (w : ThreatWorld) : List ThreatOp → List WindowEvent
  | [] => []
  | op :: ops => op.received w.now ++ history cfg (w.step cfg op) ops

/-- received within the last `threatWindowMs` -/
def inWindow (cfg : PolicyConfig) (now : ℕ) (e : WindowEvent) : Bool :=
  decide (now ≤ e.ts + cfg.threatWindowMs)

/-- the last `threatWindowMaxEvents` signals -/
def lastEvents (cfg : PolicyConfig) (hist : List WindowEvent) : List WindowEvent :=
  hist.drop (hist.length - cfg.threatWindowMaxEvents)

/-- how many signals of a counted type make the level Critical -/
def PolicyConfig.criticalCount (cfg : PolicyConfig) : SignalType → Option ℕ
  | .policyDeny => some cfg.threatCriticalDenies
  | .authInvalidToken => some cfg.threatCriticalInvalidTokens
  | .honeypotTrigger => some cfg.threatCriticalHoneypot
  | .mfaRateLimited => some cfg.threatCriticalMfaRateLimited
  | .mfaFailed => none
  | .auditSignal => none

variable {cfg : PolicyConfig} {st : ThreatState} {hist : List WindowEvent} {now now' : ℕ}

/-- The service keeps a suffix of the history, and in it all that the cap and the window leave. -/
structure Seen (cfg : PolicyConfig) (st : ThreatState) (hist : List WindowEvent) (now : ℕ) :
    Prop where
  suffix : st.events <:+ hist
  kept : ((lastEvents cfg hist).filter (inWindow cfg now)).Sublist st.events

/-- In a list sorted by time, dropping the old ones at the front keeps exactly the others. -/
theorem dropWhile_old {es : List WindowEvent} (hs : es.Pairwise fun a b => a.ts ≤ b.ts) :
    es.dropWhile (fun e => e.ts + cfg.threatWindowMs < now) = es.filter (inWindow cfg now) := by
  induction es with
  | nil => rfl
  | cons e es ih =>
    rw [List.pairwise_cons] at hs
    by_cases hold : e.ts + cfg.threatWindowMs < now
    · rw [List.dropWhile_cons_of_pos (by simpa using hold), ih hs.2,
        List.filter_cons_of_neg (by simpa [inWindow] using hold)]
    · rw [List.dropWhile_cons_of_neg (by simpa using hold), eq_comm, List.filter_eq_self]
      intro x hx
      have hle : e.ts ≤ x.ts := by
        rcases List.mem_cons.mp hx with rfl | hx
        · exact le_rfl
        · exact hs.1 x hx
      simp only [inWindow, decide_eq_true_eq]
      omega

theorem filter_window_mono (hle : now ≤ now') (es : List WindowEvent) :
    (es.filter (inWindow cfg now')).Sublist (es.filter (inWindow cfg now)) := by
  refine List.monotone_filter_right es fun e he => ?_
  simp only [inWindow, decide_eq_true_eq] at he ⊢
  omega

namespace Seen

theorem mono (h : Seen cfg st hist now) (hle : now ≤ now') : Seen cfg st hist now' :=
  ⟨h.suffix, (filter_window_mono hle _).trans h.kept⟩

/-- Only the events of a state matter. -/
theorem of_events {st' : ThreatState} (h : Seen cfg st hist now) (he : st'.events = st.events) :
    Seen cfg st' hist now :=
  ⟨he ▸ h.suffix, he ▸ h.kept⟩

theorem evict (h : Seen cfg st hist now) (hs : st.events.Pairwise fun a b => a.ts ≤ b.ts)
    (hle : now ≤ now') : Seen cfg (st.evict cfg now') hist now' := by
  refine ⟨(List.dropWhile_suffix _).trans h.suffix, ?_⟩
  show (_ : List WindowEvent).Sublist (st.events.dropWhile _)
  rw [dropWhile_old hs]
  have hkept := (h.mono hle).kept.filter (inWindow cfg now')
  simpa only [List.filter_filter, Bool.and_self] using hkept

/-- A new signal at the back, and the cap. -/
theorem push (h : Seen cfg st hist now) (hle : now ≤ now') (type : SignalType) :
    let events := st.events ++ [⟨now', type⟩]
    Seen cfg { st with events := events.drop (events.length - cfg.threatWindowMaxEvents) }
      (hist ++ [⟨now', type⟩]) now' := by
  intro events
  have hsuffix : events <:+ hist ++ [⟨now', type⟩] := by
    obtain ⟨gone, rfl⟩ := h.suffix
    exact ⟨gone, by simp [events]⟩
  refine ⟨(List.drop_suffix _ _).trans hsuffix, ?_⟩
  by_cases hcap : events.length ≤ cfg.threatWindowMaxEvents
  · -- the cap drops nothing
    have hlen : events.length = st.events.length + 1 := by simp [events]
    have hlast : (lastEvents cfg (hist ++ [⟨now', type⟩])).Sublist
        (lastEvents cfg hist ++ [⟨now', type⟩]) := by
      unfold lastEvents
      rw [List.length_append, List.length_singleton,
        List.drop_append_of_le_length (by omega)]
      exact (List.drop_sublist_drop_left hist (by omega)).append_right _
    rw [Nat.sub_eq_zero_of_le hcap, List.drop_zero]
    refine (hlast.filter _).trans ?_
    rw [List.filter_append]
    exact (h.mono hle).kept.append List.filter_sublist
  · -- the cap leaves as many as it allows, the last of the history
    obtain ⟨gone, hgone⟩ := hsuffix
    have hlast : lastEvents cfg (hist ++ [⟨now', type⟩]) =
        events.drop (events.length - cfg.threatWindowMaxEvents) := by
      unfold lastEvents
      rw [← hgone, List.length_append, Nat.add_sub_assoc (by omega), ← List.drop_drop,
        List.drop_left]
    rw [hlast]
    exact List.filter_sublist

theorem recompute (h : Seen cfg st hist now) (hs : st.events.Pairwise fun a b => a.ts ≤ b.ts)
    (hle : now ≤ now') : Seen cfg (st.recomputeLevel cfg now') hist now' := by
  by_cases ho : st.manualOverride = none
  · exact (h.evict hs hle).of_events (ThreatState.recomputeLevel_events ho).events
  · rw [ThreatState.recomputeLevel_of_override ho]
    exact h.mono hle

theorem record (h : Seen cfg st hist now) (hl : Ladder cfg st now) (hle : now ≤ now')
    (type : SignalType) :
    Seen cfg (st.record cfg now' type) (hist ++ [⟨now', type⟩]) now' := by
  have hladder := (@Ladder.push cfg st now now' hl hle type _ rfl).evict now'
  have hevict := (h.push hle type).evict (@Ladder.push cfg st now now' hl hle type _ rfl).sorted le_rfl
  exact recompute ⟨hevict.suffix, hevict.kept⟩ hladder.sorted le_rfl

theorem cooled (h : Seen cfg st hist now) (hle : now ≤ now') :
    Seen cfg (st.maybeCooldown cfg now') hist now' :=
  (h.mono hle).of_events (ThreatState.maybeCooldown_untouched cfg st now').events

theorem step {w : ThreatWorld} (h : Seen cfg w.svc hist w.now) (hl : Ladder cfg w.svc w.now)
    (op : ThreatOp) :
    Seen cfg (w.step cfg op).svc (hist ++ op.received w.now) (w.step cfg op).now := by
  cases op with
  | signal dt type => exact h.record hl (Nat.le_add_right _ _) type
  | currentChallengeThreshold dt =>
    show Seen cfg _ (hist ++ []) _
    rw [List.append_nil]
    exact h.cooled (Nat.le_add_right _ _)
  | currentDenyThreshold dt =>
    show Seen cfg _ (hist ++ []) _
    rw [List.append_nil]
    exact h.cooled (Nat.le_add_right _ _)
  | snapshot dt₁ dt₂ =>
    show Seen cfg _ (hist ++ []) _
    rw [List.append_nil]
    exact (h.cooled (Nat.le_add_right _ _)).cooled (Nat.le_add_right _ _)
  | setManualLevel dt level =>
    show Seen cfg _ (hist ++ []) _
    rw [List.append_nil]
    refine (h.mono (Nat.le_add_right _ _)).of_events ?_
    show (w.svc.setManualLevel level (w.now + dt)).events = w.svc.events
    unfold ThreatState.setManualLevel
    dsimp only
    split_ifs
    · rfl
    · exact (ThreatState.transitionTo_untouched _ _ _ _).events
  | clearManualLevel dt₁ dt₂ =>
    show Seen cfg _ (hist ++ []) _
    rw [List.append_nil]
    have hclear : Seen cfg { w.svc with manualOverride := none } hist w.now :=
      ⟨h.suffix, h.kept⟩
    have hcool := hclear.cooled (Nat.le_add_right w.now dt₁)
    refine hcool.recompute ?_ (Nat.le_add_right _ _)
    rw [(ThreatState.maybeCooldown_untouched _ _ _).events]
    exact hl.sorted

end Seen

/-- What the service sees of the signals of a whole run. -/
theorem seen_of_run {w : ThreatWorld} (ops : List ThreatOp) (h : Seen cfg w.svc hist w.now)
    (hl : Ladder cfg w.svc w.now) :
    let w' := runSteps (ThreatWorld.step cfg) w ops
    Seen cfg w'.svc (hist ++ history cfg w ops) w'.now := by
  induction ops generalizing w hist with
  | nil =>
    rw [history, List.append_nil]
    exact h
  | cons op ops ih =>
    rw [history, ← List.append_assoc]
    exact ih (h.step hl op) (hl.step op)

theorem seen_of_start (cfg : PolicyConfig) (t₀ : ℕ) (ops : List ThreatOp) :
    let w := runSteps (ThreatWorld.step cfg) (.start t₀) ops
    Seen cfg w.svc (history cfg (.start t₀) ops) w.now := by
  have hstart : Seen cfg (ThreatWorld.start t₀).svc [] (ThreatWorld.start t₀).now :=
    ⟨List.suffix_refl _, by simp [lastEvents]⟩
  exact seen_of_run ops hstart (Ladder.start _ t₀)

theorem mem_pushes (c : SignalType → ℕ) {s : SignalType} {n : ℕ}
    (hs : cfg.criticalCount s = some n) :
    (decide (n ≤ c s), ThreatLevel.critical) ∈ ThreatState.pushes cfg c := by
  cases s with
  | policyDeny => cases hs; simp [ThreatState.pushes]
  | authInvalidToken => cases hs; simp [ThreatState.pushes]
  | honeypotTrigger => cases hs; simp [ThreatState.pushes]
  | mfaRateLimited => cases hs; simp [ThreatState.pushes]
  | mfaFailed => cases hs
  | auditSignal => cases hs

/-- The candidate of a counted type that reached its Critical number. -/
theorem mem_candidates {s : SignalType} {n : ℕ} (hs : cfg.criticalCount s = some n)
    (hn : n ≤ st.countByType s) : ThreatLevel.critical ∈ st.candidates cfg := by
  refine List.mem_cons_of_mem _ (List.mem_map.mpr ⟨_, List.mem_filter.mpr ⟨mem_pushes _ hs, ?_⟩, rfl⟩)
  exact decide_eq_true hn

/-- Nothing is above Critical, so the loop stays there. -/
theorem highest_of_mem {levels : List ThreatLevel} (h : ThreatLevel.critical ∈ levels) :
    ThreatState.highest levels = .critical := by
  have hstay : ∀ ls : List ThreatLevel, ls.foldl
      (fun next cand => if next.order < cand.order then cand else next) .critical = .critical := by
    intro ls
    induction ls with
    | nil => rfl
    | cons l ls ih => cases l <;> exact ih
  unfold ThreatState.highest
  generalize ThreatLevel.normal = start
  induction levels generalizing start with
  | nil => cases h
  | cons l ls ih =>
    rw [List.foldl_cons]
    rcases List.mem_cons.mp h with rfl | h
    · cases start <;> exact hstay ls
    · exact ih h _

/-- In every run of a validated service: when the last `threatWindowMaxEvents` signals, of all
types, have the Critical number of one counted type inside the window, the level right after the
last of them is Critical, unless an override is set. -/
theorem burst_reaches_critical (cfg : ValidPolicyConfig) (t₀ : ℕ) (ops : List ThreatOp) (dt : ℕ)
    (type s : SignalType) (n : ℕ) (hs : cfg.criticalCount s = some n)
    (hnone : (runSteps (ThreatWorld.step cfg.toPolicyConfig) (.start t₀) ops).svc.manualOverride =
      none) :
    let all := history cfg.toPolicyConfig (.start t₀) (ops ++ [.signal dt type])
    let w := runSteps (ThreatWorld.step cfg.toPolicyConfig) (.start t₀) (ops ++ [.signal dt type])
    n ≤ (((lastEvents cfg.toPolicyConfig all).filter (inWindow cfg.toPolicyConfig w.now)).countP
      fun e => e.type = s) → w.svc.level = .critical := by
  intro all w hburst
  have hseen : Seen cfg.toPolicyConfig w.svc all w.now := seen_of_start _ t₀ _
  have hcount : n ≤ w.svc.countByType s := hburst.trans hseen.kept.countP_le
  -- the level was recomputed from the events that are still there
  have hlevel : w.svc.level = ThreatState.highest (w.svc.candidates cfg.toPolicyConfig) := by
    have hw : w = ThreatWorld.step cfg.toPolicyConfig
        (runSteps (ThreatWorld.step cfg.toPolicyConfig) (.start t₀) ops) (.signal dt type) :=
      runSteps_snoc ops _
    rw [hw]
    exact ThreatState.record_candidates hnone
  rw [hlevel]
  exact highest_of_mem (mem_candidates hs hcount)

/-- the default policy slice, except that the second denial is Critical -/
def samplePolicy (maxEvents cooldownMs : ℕ) : PolicyConfig where
  challengeThreshold := 1 / 2
  denyThreshold := 4 / 5
  elevatedChallengeThreshold := 3 / 10
  elevatedDenyThreshold := 3 / 5
  criticalChallengeThreshold := 1 / 5
  criticalDenyThreshold := 2 / 5
  threatWindowMs := 300000
  threatWindowMaxEvents := maxEvents
  threatElevatedDenies := 1
  threatCriticalDenies := 2
  threatElevatedInvalidTokens := 30
  threatCriticalInvalidTokens := 80
  threatElevatedHoneypot := 5
  threatCriticalHoneypot := 15
  threatElevatedMfaRateLimited := 5
  threatCriticalMfaRateLimited := 15
  threatCooldownMs := cooldownMs

/-- a window with room for two signals -/
def tinyWindow : ValidPolicyConfig :=
  { samplePolicy 2 600000 with fields := by decide +kernel, cross := by decide +kernel }

theorem burst_reaches_critical_twice :
    let ops := [ThreatOp.signal 0 .policyDeny, .signal 0 .policyDeny]
    (runSteps (ThreatWorld.step tinyWindow.toPolicyConfig) (.start 0) ops).svc.level =
      .critical :=
  burst_reaches_critical tinyWindow 0 [.signal 0 .policyDeny] 0 .policyDeny .policyDeny 2 rfl rfl
    (by decide)

/-- The second denial is the Critical one; a failed MFA attempt after it pushes the first out of
the window, though nothing has expired. -/
theorem burst_masked :
    let ops := [ThreatOp.signal 0 .policyDeny, .signal 0 .policyDeny, .signal 0 .mfaFailed]
    let w := runSteps (ThreatWorld.step tinyWindow.toPolicyConfig) (.start 0) ops
    (∀ op ∈ ops, ∃ dt type, op = .signal dt type) ∧ w.svc.manualOverride = none ∧
      tinyWindow.threatCriticalDenies ≤
        ((history tinyWindow.toPolicyConfig (.start 0) ops).filter
          (inWindow tinyWindow.toPolicyConfig w.now)).countP (fun e => e.type = .policyDeny) ∧
      w.svc.level = .elevated := by
  refine ⟨?_, rfl, by decide, by decide⟩
  intro op hop
  simp only [List.mem_cons, List.not_mem_nil, or_false] at hop
  rcases hop with rfl | rfl | rfl
  · exact ⟨0, .policyDeny, rfl⟩
  · exact ⟨0, .policyDeny, rfl⟩
  · exact ⟨0, .mfaFailed, rfl⟩

end ZTG
