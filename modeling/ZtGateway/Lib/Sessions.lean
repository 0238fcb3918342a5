import ZtGateway.Lib.Pool
import ZtGateway.Lib.Prog

/-! Programs side by side over one shared state. A turn lets one session make its next call, which
the shared state answers at once, or lets something else happen to the state. What is known of a
program run alone, under every environment, holds of each session of every interleaving. -/

namespace ZTG

variable {ι Op α κ ω σ : Type} {Ans : Op → Type}

/-- the calls a program has made and what is left of it -/
structure Session (Op : Type) (Ans : Op → Type) (α : Type) where
  trace : Trace Op Ans := []
  rest : Prog Op Ans α

inductive Turn (κ ω : Type) where
  /-- the next call, `k` being what the state leaves open of its answer -/
  | call (k : κ)
  | other (x : ω)

def Turn.other? : Turn κ ω → Option ω
  | .call _ => none
  | .other x => some x

namespace Session

variable (serve : κ → σ → (op : Op) → Ans op × σ) (elsewhere : σ → ω → σ)

def act (turn : Turn κ ω) (l : Session Op Ans α) (s : σ) : Option (Session Op Ans α × σ) :=
  match turn with
  | .other x => some (l, elsewhere s x)
  | .call k =>
    match l.rest with
    | .ret _ => none
    | .call op f =>
      let r := serve k s op
      some (⟨l.trace ++ [⟨op, r.1⟩], f r.1⟩, r.2)

/-- In every run alone that answers as this trace says, the program passes through here. -/
def Follows (p : Prog Op Ans α) (l : Session Op Ans α) : Prop :=
  ∀ env : Env Op Ans, l.trace.Answered env → Prog.exec env [] p = Prog.exec env l.trace l.rest

theorem follows_start (p : Prog Op Ans α) : Follows p ⟨[], p⟩ := fun _ _ => rfl

variable {serve elsewhere} {p : Prog Op Ans α} {l l' : Session Op Ans α} {s s' : σ}

theorem Follows.act {turn : Turn κ ω} (hl : Follows p l)
    (h : act serve elsewhere turn l s = some (l', s')) : Follows p l' := by
  cases turn with
  | other x =>
    simp only [Session.act, Option.some.injEq, Prod.mk.injEq] at h
    exact h.1 ▸ hl
  | call k =>
    rcases l with ⟨tr, _ | ⟨op, f⟩⟩
    · simp [Session.act] at h
    · simp only [Session.act, Option.some.injEq, Prod.mk.injEq] at h
      obtain ⟨rfl, -⟩ := h
      intro env henv
      have hans : (serve k s op).1 = env tr op := henv tr ⟨op, _⟩ [] rfl
      have hbefore : tr.Answered env := by
        rintro pre e post rfl
        exact henv pre e (post ++ [⟨op, (serve k s op).1⟩]) (by simp)
      rw [hl env hbefore, hans]
      rfl

/-- A turn makes one call of the session, or none. -/
theorem act_trace {turn : Turn κ ω} (h : act serve elsewhere turn l s = some (l', s')) :
    l'.trace = l.trace ∨ ∃ k op, turn = .call k ∧
      l'.trace = l.trace ++ [⟨op, (serve k s op).1⟩] := by
  cases turn with
  | other x =>
    simp only [Session.act, Option.some.injEq, Prod.mk.injEq] at h
    exact .inl (h.1 ▸ rfl)
  | call k =>
    rcases l with ⟨tr, _ | ⟨op, f⟩⟩
    · simp [Session.act] at h
    · simp only [Session.act, Option.some.injEq, Prod.mk.injEq] at h
      obtain ⟨rfl, -⟩ := h
      exact .inr ⟨k, op, rfl, rfl⟩

theorem act_call {k : κ} (h : act serve elsewhere (.call k) l s = some (l', s')) :
    ∃ op, (serve k s op).2 = s' := by
  rcases l with ⟨tr, _ | ⟨op, f⟩⟩
  · simp [Session.act] at h
  · simp only [Session.act, Option.some.injEq, Prod.mk.injEq] at h
    exact ⟨op, h.2⟩

/-- Some environment answers as a trace says; `base` answers where the trace says nothing. -/
theorem exists_answered (base : Env Op Ans) (tr : Trace Op Ans) :
    ∃ env : Env Op Ans, tr.Answered env := by
  have hans : ∀ (pre : Trace Op Ans) (op : Op), ∃ a : Ans op, ∀ (e : Event Op Ans) post,
      tr = pre ++ e :: post → ∀ ho : op = e.op, e.ans = ho ▸ a := by
    intro pre op
    by_cases hex : ∃ (e : Event Op Ans) (post : Trace Op Ans), tr = pre ++ e :: post ∧ op = e.op
    · obtain ⟨e, post, htr, rfl⟩ := hex
      refine ⟨e.ans, fun e' post' htr' ho => ?_⟩
      obtain ⟨rfl, -⟩ := List.cons.inj (List.append_cancel_left (htr'.symm.trans htr))
      rfl
    · exact ⟨base pre op, fun e post htr ho => absurd ⟨e, post, htr, ho⟩ hex⟩
  choose env henv using hans
  exact ⟨env, fun pre e post htr => henv pre e.op e post htr rfl⟩

/-- What a session has done is the beginning of a run of its program alone. -/
theorem Follows.begins (hl : Follows p l) (base : Env Op Ans) :
    ∃ env new, (Prog.exec env [] p).2 = l.trace ++ new := by
  obtain ⟨env, henv⟩ := exists_answered base l.trace
  obtain ⟨new, hnew⟩ := Prog.exec_grows env l.trace l.rest
  exact ⟨env, new, by rw [hl env henv, hnew]⟩

variable [DecidableEq ι]

/-- all sessions at their start -/
def start (progs : ι → Prog Op Ans α) (s₀ : σ) : Pool ι (Session Op Ans α) σ :=
  ⟨s₀, fun i => ⟨[], progs i⟩⟩

variable (serve elsewhere) in
def run (progs : ι → Prog Op Ans α) (s₀ : σ) (ms : List (ι × Turn κ ω)) :
    Pool ι (Session Op Ans α) σ :=
  runSteps (Pool.step fun _ => act serve elsewhere) (start progs s₀) ms

theorem run_snoc (progs : ι → Prog Op Ans α) (s₀ : σ) (ms : List (ι × Turn κ ω))
    (m : ι × Turn κ ω) : run serve elsewhere progs s₀ (ms ++ [m]) =
      Pool.step (fun _ => act serve elsewhere) (run serve elsewhere progs s₀ ms) m :=
  runSteps_snoc ms m

variable (serve elsewhere) in
/-- Each session is at a point of a run of its program alone. -/
theorem follows_run (progs : ι → Prog Op Ans α) (s₀ : σ) (ms : List (ι × Turn κ ω)) (i : ι) :
    Follows (progs i) ((run serve elsewhere progs s₀ ms).locals i) := by
  have hkeep : (run serve elsewhere progs s₀ ms).Holds (fun _ => True)
      fun i l _ => Follows (progs i) l := by
    refine runSteps_keeps (I := fun w : Pool ι (Session Op Ans α) σ =>
      w.Holds (fun _ => True) fun i l _ => Follows (progs i) l) ?_ ?_ ms
    · exact fun w m hw => hw.step (fun l s h => ⟨trivial, (hw.2 m.1).act h⟩)
        fun l s _ j _ => hw.2 j
    · exact ⟨trivial, fun i => follows_start (progs i)⟩
  exact hkeep.2 i

/-- Where a call of a session stands in the interleaving: the turn that made it, and the state that
answered. -/
theorem event_turn {progs : ι → Prog Op Ans α} {s₀ : σ} {ms : List (ι × Turn κ ω)} {i : ι}
    {e : Event Op Ans} (h : e ∈ ((run serve elsewhere progs s₀ ms).locals i).trace) :
    ∃ ms₁ k ms₂, ms = ms₁ ++ (i, .call k) :: ms₂ ∧
      ((run serve elsewhere progs s₀ (ms₁ ++ [(i, .call k)])).locals i).trace =
        ((run serve elsewhere progs s₀ ms₁).locals i).trace ++ [e] ∧
      e.ans = (serve k (run serve elsewhere progs s₀ ms₁).shared e.op).1 := by
  induction ms using List.reverseRecOn with
  | nil => simp [run, start] at h
  | append_singleton ms m ih =>
    have hlater : e ∈ ((run serve elsewhere progs s₀ ms).locals i).trace → ∃ ms₁ k ms₂,
        ms ++ [m] = ms₁ ++ (i, .call k) :: ms₂ ∧
          ((run serve elsewhere progs s₀ (ms₁ ++ [(i, .call k)])).locals i).trace =
            ((run serve elsewhere progs s₀ ms₁).locals i).trace ++ [e] ∧
          e.ans = (serve k (run serve elsewhere progs s₀ ms₁).shared e.op).1 := by
      intro hold
      obtain ⟨ms₁, k, ms₂, rfl, he⟩ := ih hold
      exact ⟨ms₁, k, ms₂ ++ [m], by simp, he⟩
    by_cases hi : i = m.1
    · subst hi
      rcases Pool.step_cases (fun _ => act serve elsewhere) (run serve elsewhere progs s₀ ms) m with
        heq | ⟨l, s, hact, heq⟩
      · rw [run_snoc, heq] at h
        exact hlater h
      · have hself : ((run serve elsewhere progs s₀ (ms ++ [m])).locals m.1).trace = l.trace := by
          rw [run_snoc, Pool.step_locals_self hact]
        rw [hself] at h
        rcases act_trace hact with hsame | ⟨k, op, hturn, hnew⟩
        · rw [hsame] at h
          exact hlater h
        · rw [hnew] at h
          rcases List.mem_append.mp h with hold | hlast
          · exact hlater hold
          · obtain rfl := List.mem_singleton.mp hlast
            have hm : m = (m.1, .call k) := Prod.ext rfl hturn
            exact ⟨ms, k, [], by rw [← hm], by rw [← hm, hself, hnew], rfl⟩
    · rw [run_snoc, Pool.step_locals_ne hi] at h
      exact hlater h

/-- What every turn keeps of the shared state together with the turns taken. -/
theorem shared_follows {τ : Type} {step : τ → ω → τ} {R : σ → τ → Prop}
    (hserve : ∀ k s t op, R s t → R (serve k s op).2 t)
    (helsewhere : ∀ s t x, R s t → R (elsewhere s x) (step t x)) {progs : ι → Prog Op Ans α}
    {s₀ : σ} {t₀ : τ} (h₀ : R s₀ t₀) (ms : List (ι × Turn κ ω)) :
    R (run serve elsewhere progs s₀ ms).shared
      (runSteps step t₀ (ms.filterMap fun m => m.2.other?)) := by
  induction ms using List.reverseRecOn with
  | nil => exact h₀
  | append_singleton ms m ih =>
    rw [run_snoc, List.filterMap_append, runSteps_append]
    rcases m with ⟨i, k | x⟩
    · rcases Pool.step_cases (fun _ => act serve elsewhere) (run serve elsewhere progs s₀ ms)
        (i, .call k) with heq | ⟨l, s, hact, heq⟩
      · rw [heq]
        exact ih
      · obtain ⟨op, rfl⟩ := act_call hact
        rw [heq]
        exact hserve _ _ _ _ ih
    · exact helsewhere _ _ _ ih

end Session

end ZTG
