import ZtGateway.Lib.Prog

/-! An environment that takes no notice of some calls, such as clock readings and log lines. Programs
that differ in such calls alone have the same results and make the same other calls. -/

namespace ZTG

variable {Op : Type} {Ans : Op → Type} {α β σ ε : Type}

/-- What it answers depends on the calls of the kind `f` alone. -/
def Env.hearing (f : Op → Bool) (answer : Env Op Ans) : Env Op Ans := fun tr op =>
  answer (tr.only f) op

variable {f : Op → Bool} {answer : Env Op Ans}

theorem Env.hearing_congr {tr tr' : Trace Op Ans} (h : tr.only f = tr'.only f) (op : Op) :
    Env.hearing f answer tr op = Env.hearing f answer tr' op := by
  rw [Env.hearing, Env.hearing, h]

theorem Prog.exec_hearing (p : Prog Op Ans α) {tr tr' : Trace Op Ans} (h : tr.only f = tr'.only f) :
    (exec (Env.hearing f answer) tr p).1 = (exec (Env.hearing f answer) tr' p).1 ∧
      (exec (Env.hearing f answer) tr p).2.only f = (exec (Env.hearing f answer) tr' p).2.only f := by
  induction p generalizing tr tr' with
  | ret a => exact ⟨rfl, h⟩
  | call op k ih =>
    rw [exec_call, exec_call, Env.hearing_congr h op]
    exact ih _ (by rw [Trace.only_append, Trace.only_append, h])

namespace Act

/-- `m` and `m'` differ in calls that are not heard. -/
def Echoes (f : Op → Bool) (answer : Env Op Ans) (m m' : Act Op Ans σ ε α) : Prop :=
  ∀ s (tr tr' : Trace Op Ans), tr.only f = tr'.only f →
    (exec (Env.hearing f answer) m s tr).1 = (exec (Env.hearing f answer) m' s tr').1 ∧
      (exec (Env.hearing f answer) m s tr).2.only f =
        (exec (Env.hearing f answer) m' s tr').2.only f

namespace Echoes

theorem refl (m : Act Op Ans σ ε α) : Echoes f answer m m := fun s _ _ h => (m s).exec_hearing h

variable {m m' : Act Op Ans σ ε α}

theorem bind {g g' : α → Act Op Ans σ ε β} (hm : Echoes f answer m m')
    (hg : ∀ a, Echoes f answer (g a) (g' a)) : Echoes f answer (m >>= g) (m' >>= g') := by
  intro s tr tr' h
  obtain ⟨hres, htr⟩ := hm s tr tr' h
  rw [exec_bind, exec_bind]
  rcases hx : exec (Env.hearing f answer) m s tr with ⟨⟨e | a, s₁⟩, tr₁⟩
  all_goals
    rcases hx' : exec (Env.hearing f answer) m' s tr' with ⟨r, tr₂⟩
    rw [hx, hx'] at hres htr
    subst hres
  · exact ⟨rfl, htr⟩
  · exact hg a s₁ tr₁ tr₂ htr

theorem tryCatch {c c' : ε → Act Op Ans σ ε α} (hm : Echoes f answer m m')
    (hc : ∀ e, Echoes f answer (c e) (c' e)) :
    Echoes f answer (tryCatch m c) (tryCatch m' c') := by
  intro s tr tr' h
  obtain ⟨hres, htr⟩ := hm s tr tr' h
  rw [exec_tryCatch, exec_tryCatch]
  rcases hx : exec (Env.hearing f answer) m s tr with ⟨⟨e | a, s₁⟩, tr₁⟩
  all_goals
    rcases hx' : exec (Env.hearing f answer) m' s tr' with ⟨r, tr₂⟩
    rw [hx, hx'] at hres htr
    subst hres
  · exact hc e s₁ tr₁ tr₂ htr
  · exact ⟨rfl, htr⟩

end Echoes

end Act

end ZTG
