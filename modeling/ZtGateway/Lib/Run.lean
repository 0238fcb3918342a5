import Mathlib.Tactic

/-! Runs of a state machine given by a step function, and conditions that hold at
every step of a run, judged on the state before it. -/

namespace ZTG

variable {σ ι : Type}

def runSteps (step : σ → ι → σ) (s : σ) (ops : List ι) : σ := ops.foldl step s

/-- `P` holds at each step, of the state before the step and its input. -/
def Along (step : σ → ι → σ) (P : σ → ι → Prop) (s : σ) : List ι → Prop
  | [] => True
  | op :: ops => P s op ∧ Along step P (step s op) ops

variable {step : σ → ι → σ} {P Q : σ → ι → Prop} {s : σ}

instance Along.decidable [∀ s op, Decidable (P s op)] :
    ∀ (s : σ) (ops : List ι), Decidable (Along step P s ops)
  | _, [] => .isTrue trivial
  | s, op :: ops =>
    have := Along.decidable (step s op) ops
    inferInstanceAs (Decidable (_ ∧ _))

@[simp] theorem runSteps_nil : runSteps step s [] = s := rfl

@[simp] theorem runSteps_cons (op : ι) (ops : List ι) :
    runSteps step s (op :: ops) = runSteps step (step s op) ops := rfl

theorem runSteps_append (ops ops' : List ι) :
    runSteps step s (ops ++ ops') = runSteps step (runSteps step s ops) ops' := List.foldl_append

theorem runSteps_snoc (ops : List ι) (op : ι) :
    runSteps step s (ops ++ [op]) = step (runSteps step s ops) op := by
  rw [runSteps_append, runSteps_cons, runSteps_nil]

/-- What every allowed step keeps, every allowed run keeps. -/
theorem runSteps_invariant {Inv : σ → Prop} (hstep : ∀ s op, Inv s → P s op → Inv (step s op))
    {ops : List ι} (hs : Inv s) (h : Along step P s ops) : Inv (runSteps step s ops) := by
  induction ops generalizing s with
  | nil => exact hs
  | cons op ops ih => exact ih (hstep s op hs h.1) h.2

theorem runSteps_keeps {I : σ → Prop} (hstep : ∀ s op, I s → I (step s op)) (hs : I s)
    (ops : List ι) : I (runSteps step s ops) := by
  induction ops generalizing s with
  | nil => exact hs
  | cons op ops ih => exact ih (hstep s op hs)

/-- A run that makes `I` true makes it true at one of its steps. -/
theorem runSteps_turn {I : σ → Prop} (hs : ¬ I s) {ops : List ι} (h : I (runSteps step s ops)) :
    ∃ ops₁ op ops₂, ops = ops₁ ++ op :: ops₂ ∧ ¬ I (runSteps step s ops₁) ∧
      I (step (runSteps step s ops₁) op) := by
  induction ops generalizing s with
  | nil => exact absurd h hs
  | cons op ops ih =>
    by_cases hop : I (step s op)
    · exact ⟨[], op, ops, rfl, hs, hop⟩
    · obtain ⟨ops₁, op', ops₂, rfl, hbefore, hafter⟩ := ih hop h
      exact ⟨op :: ops₁, op', ops₂, rfl, hbefore, hafter⟩

/-- The condition at one step of a run, with the state the run had reached. -/
theorem Along.at {ops ops' : List ι} {op : ι} (h : Along step P s (ops ++ op :: ops')) :
    Along step P s ops ∧ P (runSteps step s ops) op := by
  induction ops generalizing s with
  | nil => exact ⟨trivial, h.1⟩
  | cons op' ops ih => exact ⟨⟨h.1, (ih h.2).1⟩, (ih h.2).2⟩

theorem Along.append {ops ops' : List ι} (h : Along step P s (ops ++ ops')) :
    Along step P s ops ∧ Along step P (runSteps step s ops) ops' := by
  induction ops generalizing s with
  | nil => exact ⟨trivial, h⟩
  | cons op ops ih => exact ⟨⟨h.1, (ih h.2).1⟩, (ih h.2).2⟩

theorem Along.of_split {ops : List ι}
    (h : ∀ ops₁ op ops₂, ops = ops₁ ++ op :: ops₂ → P (runSteps step s ops₁) op) :
    Along step P s ops := by
  induction ops generalizing s with
  | nil => trivial
  | cons op ops ih =>
    refine ⟨h [] op ops rfl, ih fun ops₁ op' ops₂ hops => ?_⟩
    exact h (op :: ops₁) op' ops₂ (by rw [hops]; rfl)

theorem Along.mono (hPQ : ∀ s op, P s op → Q s op) {ops : List ι} (h : Along step P s ops) :
    Along step Q s ops := by
  induction ops generalizing s with
  | nil => trivial
  | cons op ops ih => exact ⟨hPQ s op h.1, ih h.2⟩

theorem Along.and {ops : List ι} (h : Along step P s ops) (h' : Along step Q s ops) :
    Along step (fun s op => P s op ∧ Q s op) s ops := by
  induction ops generalizing s with
  | nil => trivial
  | cons op ops ih => exact ⟨⟨h.1, h'.1⟩, ih h.2 h'.2⟩

theorem along_iff (hPQ : ∀ s op, P s op ↔ Q s op) {ops : List ι} :
    Along step P s ops ↔ Along step Q s ops :=
  ⟨Along.mono fun s op => (hPQ s op).mp, Along.mono fun s op => (hPQ s op).mpr⟩

/-- `P` held at one of the steps, of the state before the step and its input. -/
def Sometime (step : σ → ι → σ) (P : σ → ι → Prop) (s : σ) : List ι → Prop
  | [] => False
  | op :: ops => P s op ∨ Sometime step P (step s op) ops

theorem sometime_append {ops ops' : List ι} :
    Sometime step P s (ops ++ ops') ↔
      Sometime step P s ops ∨ Sometime step P (runSteps step s ops) ops' := by
  induction ops generalizing s with
  | nil => simp [Sometime]
  | cons op ops ih =>
    rw [List.cons_append, Sometime, Sometime, runSteps_cons, ih, or_assoc]

theorem sometime_snoc {ops : List ι} {op : ι} :
    Sometime step P s (ops ++ [op]) ↔ Sometime step P s ops ∨ P (runSteps step s ops) op := by
  rw [sometime_append, Sometime, Sometime, or_false]

theorem Sometime.mono (hPQ : ∀ s op, P s op → Q s op) {ops : List ι} (h : Sometime step P s ops) :
    Sometime step Q s ops := by
  induction ops generalizing s with
  | nil => exact h
  | cons op ops ih =>
    rcases h with h | h
    · exact .inl (hPQ s op h)
    · exact .inr (ih h)

/-- A machine together with what it answered so far. -/
structure Logged (σ ε : Type) where
  state : σ
  log : List ε := []

def Logged.next {ε : Type} (step : σ → ι → σ) (out : σ → ι → ε) (w : Logged σ ε) (op : ι) :
    Logged σ ε :=
  { state := step w.state op, log := w.log ++ [out w.state op] }

/-- Two machines that go in step: what they answer, and how their states stand afterwards. -/
theorem Logged.lockstep {ε τ : Type} {step' : τ → ι → τ} {out : σ → ι → ε} {out' : τ → ι → ε}
    {R : σ → τ → Prop}
    (hstep : ∀ s t op, R s t → out s op = out' t op ∧ R (step s op) (step' t op))
    {s : σ} {t : τ} (hR : R s t) (log : List ε) (ops : List ι) :
    let w := runSteps (Logged.next step out) ⟨s, log⟩ ops
    let w' := runSteps (Logged.next step' out') ⟨t, log⟩ ops
    w.log = w'.log ∧ R w.state w'.state := by
  induction ops generalizing s t log with
  | nil => exact ⟨rfl, hR⟩
  | cons op ops ih =>
    obtain ⟨hout, hnext⟩ := hstep s t op hR
    have hrest := ih hnext (log ++ [out s op])
    rwa [runSteps_cons, runSteps_cons, Logged.next, Logged.next, ← hout]

/-- Where an entry of the log came from. -/
theorem Logged.log_split {ε : Type} {out : σ → ι → ε} {w : Logged σ ε} (hw : w.log = [])
    {ops : List ι} {pre post : List ε} {e : ε}
    (h : (runSteps (Logged.next step out) w ops).log = pre ++ e :: post) :
    ∃ ops₁ op ops₂, ops = ops₁ ++ op :: ops₂ ∧ (runSteps (Logged.next step out) w ops₁).log = pre ∧
      e = out (runSteps (Logged.next step out) w ops₁).state op := by
  induction ops using List.reverseRecOn generalizing post with
  | nil => simp [hw] at h
  | append_singleton ops op ih =>
    rw [runSteps_append] at h
    simp only [runSteps_cons, runSteps_nil, Logged.next] at h
    rcases List.eq_nil_or_concat post with rfl | ⟨post, x, rfl⟩
    · obtain ⟨hpre, he⟩ := List.append_inj' h rfl
      exact ⟨ops, op, [], rfl, hpre, by simpa using he.symm⟩
    · rw [List.concat_eq_append, ← List.cons_append, ← List.append_assoc] at h
      obtain ⟨hpre, -⟩ := List.append_inj' h rfl
      obtain ⟨ops₁, op', ops₂, rfl, hlog, he⟩ := ih hpre
      exact ⟨ops₁, op', ops₂ ++ [op], by simp, hlog, he⟩

end ZTG
