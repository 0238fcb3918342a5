import ZtGateway.Proofs.ThreatBurst

/-! The level against the true history of signals: whenever it is recomputed, it is the highest
rung that the last `threatWindowMaxEvents` signals inside the window reach. -/

namespace ZTG

variable {cfg : PolicyConfig} {st : ThreatState} {hist : List WindowEvent} {now : ℕ}

/-- the signal types that have thresholds -/
def countedTypes : List SignalType :=
  [.policyDeny, .authInvalidToken, .honeypotTrigger, .mfaRateLimited]

def PolicyConfig.elevatedCount (cfg : PolicyConfig) : SignalType → Option ℕ
  | .policyDeny => some cfg.threatElevatedDenies
  | .authInvalidToken => some cfg.threatElevatedInvalidTokens
  | .honeypotTrigger => some cfg.threatElevatedHoneypot
  | .mfaRateLimited => some cfg.threatElevatedMfaRateLimited
  | .mfaFailed => none
  | .auditSignal => none

def PolicyConfig.rung (cfg : PolicyConfig) (type : SignalType) (count : ℕ) : ThreatLevel :=
  if (cfg.criticalCount type).any (· ≤ count) then .critical
  else if (cfg.elevatedCount type).any (· ≤ count) then .elevated
  else .normal

/-- the signals that count: among the last `threatWindowMaxEvents`, and not too old -/
def retained (cfg : PolicyConfig) (hist : List WindowEvent) (now : ℕ) : List WindowEvent :=
  (lastEvents cfg hist).filter (inWindow cfg now)

/-- The level is the highest of the rungs that the retained signals of the counted types reach. -/
def LevelExact (cfg : PolicyConfig) (level : ThreatLevel) (hist : List WindowEvent) (now : ℕ) :
    Prop :=
  level.order = (countedTypes.map fun type =>
    (cfg.rung type ((retained cfg hist now).countP fun e => e.type = type)).order).foldr max 0

theorem Seen.events_eq (h : Seen cfg st hist now)
    (hlen : st.events.length ≤ cfg.threatWindowMaxEvents)
    (hwindow : ∀ e ∈ st.events, inWindow cfg now e = true) :
    st.events = retained cfg hist now := by
  have hlast : st.events <:+ lastEvents cfg hist := by
    refine List.suffix_of_suffix_length_le h.suffix (List.drop_suffix _ _) ?_
    have hle := h.suffix.length_le
    rw [lastEvents, List.length_drop]
    omega
  have hsub := hlast.sublist.filter (inWindow cfg now)
  rw [List.filter_eq_self.mpr hwindow] at hsub
  exact hsub.antisymm h.kept

theorem highest_order (levels : List ThreatLevel) :
    (ThreatState.highest levels).order = (levels.map ThreatLevel.order).foldr max 0 := by
  have hfrom : ∀ start : ThreatLevel, (levels.foldl
      (fun next cand => if next.order < cand.order then cand else next) start).order =
      max start.order ((levels.map ThreatLevel.order).foldr max 0) := by
    induction levels with
    | nil => simp
    | cons l levels ih =>
      intro start
      rw [List.foldl_cons, ih, List.map_cons, List.foldr_cons]
      split_ifs
      · omega
      · omega
  rw [ThreatState.highest, hfrom]
  exact Nat.zero_max _

theorem pushed_order (ps : List (Bool × ThreatLevel)) :
    (((ps.filter (·.1)).map (·.2)).map ThreatLevel.order).foldr max 0 =
      (ps.map fun p => if p.1 then p.2.order else 0).foldr max 0 := by
  induction ps with
  | nil => rfl
  | cons p ps ih =>
    cases hp : p.1 with
    | false =>
      rw [List.filter_cons_of_neg (by simp [hp]), ih, List.map_cons, List.foldr_cons, hp]
      exact (Nat.zero_max _).symm
    | true =>
      rw [List.filter_cons_of_pos hp, List.map_cons, List.map_cons, List.foldr_cons, ih,
        List.map_cons, List.foldr_cons, hp]
      rfl

theorem rung_order {type : SignalType} {elevated critical : ℕ} (c : ℕ)
    (he : cfg.elevatedCount type = some elevated) (hc : cfg.criticalCount type = some critical) :
    (cfg.rung type c).order =
      max (if elevated ≤ c then 1 else 0) (if critical ≤ c then 2 else 0) := by
  simp only [PolicyConfig.rung, he, hc, Option.any_some, decide_eq_true_eq]
  split_ifs <;> rfl

theorem highest_candidates (cfg : PolicyConfig) (st : ThreatState) :
    (ThreatState.highest (st.candidates cfg)).order =
      (countedTypes.map fun type => (cfg.rung type (st.countByType type)).order).foldr max 0 := by
  rw [highest_order, ThreatState.candidates, List.map_cons, List.foldr_cons, pushed_order]
  simp only [countedTypes, List.map_cons, List.map_nil, List.foldr_cons, List.foldr_nil,
    ThreatState.pushes, decide_eq_true_eq]
  rw [rung_order _ rfl rfl, rung_order _ rfl rfl, rung_order _ rfl rfl, rung_order _ rfl rfl]
  simp only [ThreatLevel.order, Nat.zero_max, Nat.max_zero]
  ac_rfl

theorem recomputed_inWindow (hnone : st.manualOverride = none)
    (hs : st.events.Pairwise fun a b => a.ts ≤ b.ts) :
    ∀ e ∈ (st.recomputeLevel cfg now).events, inWindow cfg now e = true := by
  intro e he
  rw [(ThreatState.recomputeLevel_events hnone).events, ThreatState.evict] at he
  rw [dropWhile_old hs] at he
  exact (List.mem_filter.mp he).2

/-- The step recomputes the level: a signal while no override is set, or a clear. -/
def Recomputes (w : ThreatWorld) : ThreatOp → Prop
  | .signal _ _ => w.svc.manualOverride = none
  | .clearManualLevel _ _ => True
  | _ => False

theorem Seen.levelExact (h : Seen cfg (st.recomputeLevel cfg now) hist now)
    (hl : Ladder cfg (st.recomputeLevel cfg now) now) (hnone : st.manualOverride = none)
    (hs : st.events.Pairwise fun a b => a.ts ≤ b.ts) :
    LevelExact cfg (st.recomputeLevel cfg now).level hist now := by
  have hevents := h.events_eq hl.bounded (recomputed_inWindow hnone hs)
  unfold LevelExact
  rw [ThreatState.recomputeLevel_candidates hnone, highest_candidates]
  unfold ThreatState.countByType
  rw [hevents]

/-- In every run of a validated service, right after a signal while no override is set and right
after a clear, the level is the highest rung that the retained signals reach, of all that were
received since the start. -/
theorem level_of_retained (cfg : ValidPolicyConfig) (t₀ : ℕ) (ops : List ThreatOp) (op : ThreatOp)
    (hop : Recomputes (runSteps (ThreatWorld.step cfg.toPolicyConfig) (.start t₀) ops) op) :
    let w := runSteps (ThreatWorld.step cfg.toPolicyConfig) (.start t₀) (ops ++ [op])
    LevelExact cfg.toPolicyConfig w.svc.level
      (history cfg.toPolicyConfig (.start t₀) (ops ++ [op])) w.now := by
  intro w
  have hseen : Seen cfg.toPolicyConfig w.svc
      (history cfg.toPolicyConfig (.start t₀) (ops ++ [op])) w.now := seen_of_start _ t₀ _
  have hl₀ := Ladder.run cfg.toPolicyConfig t₀ ops
  have hl : Ladder cfg.toPolicyConfig w.svc w.now :=
    Ladder.run cfg.toPolicyConfig t₀ (ops ++ [op])
  have hw : w = (runSteps (ThreatWorld.step cfg.toPolicyConfig) (.start t₀) ops).step
      cfg.toPolicyConfig op := runSteps_snoc ops op
  clear_value w
  subst hw
  generalize runSteps (ThreatWorld.step cfg.toPolicyConfig) (.start t₀) ops = w at hop hl₀ hl hseen ⊢
  cases op with
  | signal dt type =>
    exact hseen.levelExact hl hop ((hl₀.push (Nat.le_add_right _ dt) rfl).evict _).sorted
  | clearManualLevel dt₁ dt₂ =>
    have hsame := ThreatState.maybeCooldown_untouched cfg.toPolicyConfig
      { w.svc with manualOverride := none } (w.now + dt₁)
    refine hseen.levelExact hl hsame.manualOverride ?_
    rw [hsame.events]
    exact hl₀.sorted
  | _ => exact hop.elim

/-- Two denials under an override that is cleared a second later. -/
theorem level_of_retained_cleared :
    let ops := [ThreatOp.setManualLevel 0 .normal, .signal 0 .policyDeny, .signal 0 .policyDeny]
    let w := runSteps (ThreatWorld.step tinyWindow.toPolicyConfig) (.start 0)
      (ops ++ [.clearManualLevel 1000 0])
    w.svc.level = .critical ∧ LevelExact tinyWindow.toPolicyConfig w.svc.level
      (history tinyWindow.toPolicyConfig (.start 0) (ops ++ [.clearManualLevel 1000 0])) w.now :=
  ⟨by decide, level_of_retained tinyWindow 0 _ _ trivial⟩

end ZTG
