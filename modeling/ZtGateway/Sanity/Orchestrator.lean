import ZtGateway.Sanity.Stages

/-! The orchestrator and the logging decorator add only clock readings, log lines
and counters to what the stages do, and go on after `continue` only. -/

namespace ZTG

open Act

variable {env : Env Call Reply} {s s' : StageContext} {tr tr' : Trace Call Reply}
  {cfg : GatewayConfig}

/-- `tr'` is `tr` with immaterial calls added. -/
def AddsNoise (tr tr' : Trace Call Reply) : Prop :=
  ∃ new, tr' = tr ++ new ∧ ∀ e ∈ new, e.op.material = false

theorem AddsNoise.refl (tr : Trace Call Reply) : AddsNoise tr tr := ⟨[], by simp, by simp⟩

theorem AddsNoise.trans {tr₁ tr₂ tr₃ : Trace Call Reply} (h : AddsNoise tr₁ tr₂)
    (h' : AddsNoise tr₂ tr₃) : AddsNoise tr₁ tr₃ := by
  obtain ⟨new, rfl, hnew⟩ := h
  obtain ⟨new', rfl, hnew'⟩ := h'
  exact ⟨new ++ new', List.append_assoc .., by grind⟩

theorem AddsNoise.snoc {tr tr' : Trace Call Reply} {op : Call} {a : Reply op} (h : AddsNoise tr tr')
    (hop : op.material = false) :
      AddsNoise tr (tr' ++ [⟨op, a⟩]) := h.trans ⟨[_], rfl, by simpa using hop⟩

theorem AddsNoise.only {tr tr' : Trace Call Reply} (h : AddsNoise tr tr') :
    tr'.only Call.material = tr.only Call.material := by
  obtain ⟨new, rfl, hnew⟩ := h
  rw [Trace.only_append, Trace.only_eq_nil hnew, List.append_nil]

/-- Decorated or not, a stage runs once, between noise, and its result is passed on. -/
theorem exec_wrapped (stage : PipelineStage) :
    ∃ tr₀ tr₁, AddsNoise tr tr₀ ∧ AddsNoise (exec env stage.run s tr₀).2 tr₁ ∧
      exec env (if SILENT_STAGE_IDS.contains stage.id then stage else stage.wrap).run s tr =
        ((exec env stage.run s tr₀).1, tr₁) := by
  split_ifs
  · exact ⟨tr, _, .refl tr, .refl _, rfl⟩
  · refine ⟨tr ++ [⟨.now, env tr .now⟩], ?_⟩
    simp only [PipelineStage.wrap]
    rw [exec_bind, exec_tell]
    simp only []
    rw [exec_bind, exec_tryCatch]
    generalize exec env stage.run s (tr ++ [⟨.now, env tr .now⟩]) = r
    rcases r with ⟨⟨e | outcome, s₁⟩, tr₁⟩
    · simp only [exec_bind, exec_tell, exec_get, exec_throw]
      exact ⟨_, .snoc (.refl _) rfl, .snoc (.snoc (.refl _) rfl) rfl, rfl⟩
    · simp only [exec_bind, exec_tell, exec_get, exec_pure]
      exact ⟨_, .snoc (.refl _) rfl, .snoc (.snoc (.refl _) rfl) rfl, rfl⟩

theorem wrapped_uses {allowed : Call → Prop} (hn : ∀ op : Call, op.material = false → allowed op)
    {stage : PipelineStage} (h : stage.run.Uses allowed) :
    (if SILENT_STAGE_IDS.contains stage.id then stage else stage.wrap).run.Uses allowed := by
  split_ifs
  · exact h
  · refine .bind (.tell (hn _ rfl)) fun _ => .bind (.tryCatch h fun e => ?_) fun outcome => ?_
    · exact .bind (.tell (hn _ rfl)) fun _ => .bind .get fun ctx =>
        .bind (.tell (hn _ rfl)) fun _ => .throw e
    · exact .bind (.tell (hn _ rfl)) fun _ => .bind .get fun ctx =>
        .bind (.tell (hn _ rfl)) fun _ => .pure _

theorem runStages_uses {allowed : Call → Prop} (hn : ∀ op : Call, op.material = false → allowed op)
    {stages : List PipelineStage} (h : ∀ st ∈ stages, st.run.Uses allowed) :
    (runStages (wrapStages stages)).Uses allowed := by
  induction stages with
  | nil => exact .pure _
  | cons stage rest ih =>
    refine .bind (.call (hn _ rfl) _) fun t0 =>
      .bind (wrapped_uses hn (h stage (by simp))) fun outcome => ?_
    refine .bind (.call (hn _ rfl) _) fun t1 => .bind (.tell (hn _ rfl)) fun _ => ?_
    cases outcome with
    | continue_ => exact ih fun st hst => h st (by simp [hst])
    | bypass => exact .pure _
    | shortCircuit status body headers challenge => exact .pure _
    | proxied status body => exact .pure _

/-- The rest of the pipeline runs after `continue` and is skipped after anything else. -/
theorem exec_runStages_cons (stage : PipelineStage) :
    ∃ tr₀ tr₁, AddsNoise tr tr₀ ∧ AddsNoise (exec env stage.run s tr₀).2 tr₁ ∧
      ∀ rest, exec env (runStages (wrapStages (stage :: rest))) s tr =
        match (exec env stage.run s tr₀).1 with
        | (.ok .continue_, s₁) => exec env (runStages (wrapStages rest)) s₁ tr₁
        | (.ok outcome, s₁) => ((.ok outcome, s₁), tr₁)
        | (.error e, s₁) => ((.error e, s₁), tr₁) := by
  obtain ⟨tr₀, tr₁, h₀, h₁, hx⟩ := @exec_wrapped env s (tr ++ [⟨.now, env tr .now⟩]) stage
  simp only [wrapStages, List.map_cons, runStages, exec_bind, exec_call, exec_tell, hx]
  refine ⟨tr₀, ?_⟩
  have h₀' : AddsNoise tr tr₀ := .trans (.snoc (.refl _) rfl) h₀
  generalize exec env stage.run s tr₀ = r at h₁ ⊢
  rcases r with ⟨⟨e | outcome, s₁⟩, tr₂⟩
  · exact ⟨tr₁, h₀', h₁, fun _ => rfl⟩
  · have hn : ∀ a m, AddsNoise tr₂ (tr₁ ++ [⟨.now, a⟩] ++ [⟨.metric m, ()⟩]) := fun a m =>
      .snoc (.snoc h₁ rfl) rfl
    cases outcome with
    | continue_ => exact ⟨_, h₀', hn _ _, fun _ => rfl⟩
    | bypass => exact ⟨_, h₀', hn _ _, fun _ => rfl⟩
    | shortCircuit status body headers challenge => exact ⟨_, h₀', hn _ _, fun _ => rfl⟩
    | proxied status body => exact ⟨_, h₀', hn _ _, fun _ => rfl⟩

/-- The last stage, between noise. -/
theorem exec_runStages_last (stage : PipelineStage) :
    ∃ tr₀, AddsNoise tr tr₀ ∧ AddsNoise (exec env stage.run s tr₀).2
      (exec env (runStages (wrapStages [stage])) s tr).2 := by
  obtain ⟨tr₀, tr₁, h₀, h₁, hx⟩ := @exec_runStages_cons env s tr stage
  refine ⟨tr₀, h₀, ?_⟩
  rw [hx]
  generalize (exec env stage.run s tr₀).1 = r
  rcases r with ⟨e | outcome, s₁⟩
  · exact h₁
  · cases outcome <;> exact h₁

theorem runStages_continue {stage : PipelineStage} {rest : List PipelineStage}
    (h : exec env (runStages (wrapStages (stage :: rest))) s tr = ((.ok .continue_, s'), tr')) :
    ∃ tr₀ s₁ tr₁ tr₂, AddsNoise tr tr₀ ∧ AddsNoise tr₁ tr₂ ∧
      exec env stage.run s tr₀ = ((.ok .continue_, s₁), tr₁) ∧
      exec env (runStages (wrapStages rest)) s₁ tr₂ = ((.ok .continue_, s'), tr') := by
  obtain ⟨tr₀, tr₂, h₀, h₂, hx⟩ := @exec_runStages_cons env s tr stage
  rw [hx] at h
  rcases hr : exec env stage.run s tr₀ with ⟨⟨e | outcome, s₁⟩, tr₁⟩
  · simp [hr] at h
  · rw [hr] at h h₂
    cases outcome with
    | continue_ => exact ⟨tr₀, s₁, tr₁, tr₂, h₀, h₂, hr, h⟩
    | bypass => simp at h
    | shortCircuit status body headers challenge => simp at h
    | proxied status body => simp at h

theorem exec_runStages_append (front back : List PipelineStage) :
    exec env (runStages (wrapStages (front ++ back))) s tr =
      match exec env (runStages (wrapStages front)) s tr with
      | ((.ok .continue_, s₁), tr₁) => exec env (runStages (wrapStages back)) s₁ tr₁
      | r => r := by
  induction front generalizing s tr with
  | nil => rfl
  | cons stage front ih =>
    obtain ⟨tr₀, tr₁, -, -, hx⟩ := @exec_runStages_cons env s tr stage
    rw [List.cons_append, hx, hx]
    generalize (exec env stage.run s tr₀).1 = r
    rcases r with ⟨e | outcome, s₁⟩
    · rfl
    · cases outcome with
      | continue_ => exact ih
      | bypass => rfl
      | shortCircuit status body headers challenge => rfl
      | proxied status body => rfl

theorem runStages_append_continue {front back : List PipelineStage}
    (h : exec env (runStages (wrapStages (front ++ back))) s tr = ((.ok .continue_, s'), tr')) :
    ∃ s₁ tr₁, exec env (runStages (wrapStages front)) s tr = ((.ok .continue_, s₁), tr₁) ∧
      exec env (runStages (wrapStages back)) s₁ tr₁ = ((.ok .continue_, s'), tr') := by
  rw [exec_runStages_append] at h
  rcases hr : exec env (runStages (wrapStages front)) s tr with ⟨⟨e | outcome, s₁⟩, tr₁⟩
  · simp [hr] at h
  · rw [hr] at h
    cases outcome with
    | continue_ => exact ⟨s₁, tr₁, rfl, h⟩
    | bypass => simp at h
    | shortCircuit status body headers challenge => simp at h
    | proxied status body => simp at h

theorem exec_runStages_stopped {front : List PipelineStage} (back : List PipelineStage)
    (h : (exec env (runStages (wrapStages front)) s tr).1.1 ≠ .ok .continue_) :
    exec env (runStages (wrapStages (front ++ back))) s tr =
      exec env (runStages (wrapStages front)) s tr := by
  rw [exec_runStages_append]
  generalize exec env (runStages (wrapStages front)) s tr = r at h ⊢
  rcases r with ⟨⟨e | outcome, s₁⟩, tr₁⟩
  · rfl
  · cases outcome with
    | continue_ => exact absurd rfl h
    | bypass => rfl
    | shortCircuit status body headers challenge => rfl
    | proxied status body => rfl

end ZTG
