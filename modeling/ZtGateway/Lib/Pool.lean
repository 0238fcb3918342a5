import Mathlib.Algebra.BigOperators.Group.Finset.Basic
import Mathlib.Data.Fintype.BigOperators
import ZtGateway.Lib.Run

/-! Processes that interleave over a shared state. One step of a process reads and
writes its local state and the shared one at once; a step that is not enabled, such as
one that waits for a lock, changes nothing. -/

namespace ZTG

variable {ι π σ κ : Type} [DecidableEq ι]

structure Pool (ι π σ : Type) where
  shared : σ
  locals : ι → π

namespace Pool

/-- Process `m.1` takes the step `m.2`. -/
def step (act : ι → κ → π → σ → Option (π × σ)) (p : Pool ι π σ) (m : ι × κ) : Pool ι π σ :=
  match act m.1 m.2 (p.locals m.1) p.shared with
  | none => p
  | some (l, s) => ⟨s, Function.update p.locals m.1 l⟩

variable {act : ι → κ → π → σ → Option (π × σ)} {p : Pool ι π σ} {m : ι × κ}

theorem step_of_some {l : π} {s : σ} (h : act m.1 m.2 (p.locals m.1) p.shared = some (l, s)) :
    p.step act m = ⟨s, Function.update p.locals m.1 l⟩ := by
  rw [step, h]

theorem step_cases (act : ι → κ → π → σ → Option (π × σ)) (p : Pool ι π σ) (m : ι × κ) :
    p.step act m = p ∨ ∃ l s, act m.1 m.2 (p.locals m.1) p.shared = some (l, s) ∧
      p.step act m = ⟨s, Function.update p.locals m.1 l⟩ := by
  rcases h : act m.1 m.2 (p.locals m.1) p.shared with _ | ⟨l, s⟩
  · exact .inl (by rw [step, h])
  · exact .inr ⟨l, s, rfl, step_of_some h⟩

theorem step_locals_self {l : π} {s : σ}
    (h : act m.1 m.2 (p.locals m.1) p.shared = some (l, s)) : (p.step act m).locals m.1 = l := by
  rw [step_of_some h]
  exact Function.update_self _ _ _

theorem step_locals_ne {j : ι} (h : j ≠ m.1) : (p.step act m).locals j = p.locals j := by
  rcases step_cases act p m with heq | ⟨l, s, -, heq⟩
  · rw [heq]
  · rw [heq]
    exact Function.update_of_ne h _ _

/-- What is known of the shared state, and of each process together with it. -/
def Holds (S : σ → Prop) (L : ι → π → σ → Prop) (p : Pool ι π σ) : Prop :=
  S p.shared ∧ ∀ i, L i (p.locals i) p.shared

/-- A step keeps what its own process establishes again and the others do not lose. -/
theorem Holds.step {S : σ → Prop} {L : ι → π → σ → Prop} (hp : p.Holds S L)
    (hown : ∀ l s, act m.1 m.2 (p.locals m.1) p.shared = some (l, s) → S s ∧ L m.1 l s)
    (hother : ∀ l s, act m.1 m.2 (p.locals m.1) p.shared = some (l, s) →
      ∀ j, j ≠ m.1 → L j (p.locals j) s) : (p.step act m).Holds S L := by
  rcases step_cases act p m with heq | ⟨l, s, hact, heq⟩
  · rwa [heq]
  · rw [heq]
    refine ⟨(hown l s hact).1, fun j => ?_⟩
    by_cases hj : j = m.1
    · subst hj
      simpa using (hown l s hact).2
    · simpa [Function.update_of_ne hj] using hother l s hact j hj

section Total

variable [Fintype ι] {M : Type} [AddCommMonoid M]

/-- the sum over all processes and the shared state -/
def total (f : π → M) (g : σ → M) (p : Pool ι π σ) : M := (∑ i, f (p.locals i)) + g p.shared

/-- What a step only moves between its process and the shared state is not lost. -/
theorem total_step {f : π → M} {g : σ → M}
    (hact : ∀ i k l s l' s', act i k l s = some (l', s') → f l' + g s' = f l + g s)
    (p : Pool ι π σ) (m : ι × κ) : (p.step act m).total f g = p.total f g := by
  rcases step_cases act p m with heq | ⟨l, s, h, heq⟩
  · rw [heq]
  · have hmove := hact _ _ _ _ _ _ h
    have hrest : ∀ j ∈ Finset.univ.erase m.1,
        f (Function.update p.locals m.1 l j) = f (p.locals j) := by
      intro j hj
      rw [Function.update_of_ne (Finset.ne_of_mem_erase hj)]
    rw [heq]
    show (∑ i, f (Function.update p.locals m.1 l i)) + g s = (∑ i, f (p.locals i)) + g p.shared
    rw [← Finset.add_sum_erase _ _ (Finset.mem_univ m.1), Function.update_self,
      Finset.sum_congr rfl hrest,
      ← Finset.add_sum_erase _ (fun i => f (p.locals i)) (Finset.mem_univ m.1)]
    rw [add_right_comm, hmove, add_right_comm]

theorem total_run {f : π → M} {g : σ → M}
    (hact : ∀ i k l s l' s', act i k l s = some (l', s') → f l' + g s' = f l + g s)
    (p : Pool ι π σ) (ms : List (ι × κ)) :
    (runSteps (Pool.step act) p ms).total f g = p.total f g := by
  induction ms generalizing p with
  | nil => rfl
  | cons m ms ih => rw [runSteps_cons, ih, total_step hact]

end Total

end Pool

end ZTG
