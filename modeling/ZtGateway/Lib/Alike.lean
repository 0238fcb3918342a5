import ZtGateway.Lib.Prog

/-! The same computation in two environments. A relation between the two traces stands for what
the runs have in common so far; as long as the answers it fixes are the same, so is the result. -/

namespace ZTG

variable {Op : Type} {Ans : Op → Type} {α β σ ε : Type}

namespace Act

/-- From traces in `R`, the two runs end with the same result and state, and if they return a
value, with traces in `R'`. -/
def Alike (env₁ env₂ : Env Op Ans) (R : Trace Op Ans → Trace Op Ans → Prop)
    (m : Act Op Ans σ ε α) (R' : Trace Op Ans → Trace Op Ans → Prop) : Prop :=
  ∀ s tr₁ tr₂, R tr₁ tr₂ → (exec env₁ m s tr₁).1 = (exec env₂ m s tr₂).1 ∧
    ∀ a, (exec env₁ m s tr₁).1.1 = .ok a → R' (exec env₁ m s tr₁).2 (exec env₂ m s tr₂).2

namespace Alike

variable {env₁ env₂ : Env Op Ans} {R R₁ R₂ : Trace Op Ans → Trace Op Ans → Prop}

theorem pure (a : α) (h : ∀ tr₁ tr₂, R tr₁ tr₂ → R₁ tr₁ tr₂) :
    Alike env₁ env₂ R (Pure.pure a : Act Op Ans σ ε α) R₁ :=
  fun _ tr₁ tr₂ hR => ⟨rfl, fun _ _ => h tr₁ tr₂ hR⟩

theorem throw (e : ε) : Alike env₁ env₂ R (MonadExcept.throw e : Act Op Ans σ ε α) R₁ :=
  fun _ _ _ _ => ⟨rfl, fun _ ha => by cases ha⟩

theorem get : Alike env₁ env₂ R (MonadState.get : Act Op Ans σ ε σ) R :=
  fun _ _ _ h => ⟨rfl, fun _ _ => h⟩

theorem modify (f : σ → σ) :
    Alike env₁ env₂ R (modifyGet fun s => (PUnit.unit, f s) : Act Op Ans σ ε PUnit) R :=
  fun _ _ _ h => ⟨rfl, fun _ _ => h⟩

theorem call {op : Op} (f : Ans op → Except ε α)
    (h : ∀ tr₁ tr₂, R tr₁ tr₂ → env₁ tr₁ op = env₂ tr₂ op ∧
      ∀ a, R₁ (tr₁ ++ [⟨op, a⟩]) (tr₂ ++ [⟨op, a⟩])) :
    Alike env₁ env₂ R (Act.call op f : Act Op Ans σ ε α) R₁ := by
  intro s tr₁ tr₂ hR
  obtain ⟨hsame, hnext⟩ := h tr₁ tr₂ hR
  simp only [exec_call, hsame]
  exact ⟨trivial, fun _ _ => hnext _⟩

theorem bind {m : Act Op Ans σ ε α} {f : α → Act Op Ans σ ε β} (hm : Alike env₁ env₂ R m R₁)
    (hf : ∀ a, Alike env₁ env₂ R₁ (f a) R₂) : Alike env₁ env₂ R (m >>= f) R₂ := by
  intro s tr₁ tr₂ hR
  obtain ⟨hsame, hnext⟩ := hm s tr₁ tr₂ hR
  rw [exec_bind, exec_bind]
  rcases hx₁ : exec env₁ m s tr₁ with ⟨⟨e | a, s₁⟩, tr₁'⟩
  · rw [hx₁] at hsame
    rcases hx₂ : exec env₂ m s tr₂ with ⟨x, tr₂'⟩
    rw [hx₂] at hsame
    subst hsame
    exact ⟨rfl, fun a ha => by cases ha⟩
  · rw [hx₁] at hsame hnext
    rcases hx₂ : exec env₂ m s tr₂ with ⟨x, tr₂'⟩
    rw [hx₂] at hsame hnext
    subst hsame
    exact hf a s₁ tr₁' tr₂' (hnext a rfl)

end Alike

end Act

end ZTG
