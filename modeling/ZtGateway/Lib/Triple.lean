import ZtGateway.Lib.Prog

/-! Pre- and postconditions for computations, as long as the environment's answers meet a
condition. A triple speaks of a normal end and of a thrown error separately; the answers it
relies on are those that one run really got, as its trace has them. -/

namespace ZTG

variable {Op : Type} {Ans : Op → Type} {α β : Type}

namespace Prog

/-- Every result the program can have, under answers that satisfy `A`, satisfies `P`. -/
def EndsIn (A : ∀ op, Ans op → Prop) (P : α → Prop) : Prog Op Ans α → Prop
  | .ret a => P a
  | .call op k => ∀ a, A op a → (k a).EndsIn A P

variable {A : ∀ op, Ans op → Prop}

theorem EndsIn.mono {P Q : α → Prop} {p : Prog Op Ans α} (hp : p.EndsIn A P)
    (h : ∀ a, P a → Q a) : p.EndsIn A Q := by
  induction p with
  | ret a => exact h a hp
  | call op k ih => exact fun a ha => ih a (hp a ha)

theorem EndsIn.bind {P : α → Prop} {Q : β → Prop} {p : Prog Op Ans α} {f : α → Prog Op Ans β}
    (hp : p.EndsIn A P) (hf : ∀ a, P a → (f a).EndsIn A Q) : (p.bind f).EndsIn A Q := by
  induction p with
  | ret a => exact hf a hp
  | call op k ih => exact fun a ha => ih a (hp a ha)

theorem EndsIn.race {P : α → Prop} {awaits : Op → Bool} {timer : Op} {fired : Ans timer → Bool}
    {p : Prog Op Ans α} (hp : p.EndsIn A P) :
    (p.race awaits timer fired).EndsIn A fun o => ∀ a, o = some a → P a := by
  induction p with
  | ret a => exact fun b hb => Option.some.inj hb ▸ hp
  | call op k ih =>
    unfold Prog.race
    split_ifs
    · intro t _
      show EndsIn A _ (if fired t then _ else _)
      split_ifs
      · exact fun b hb => by simp at hb
      · exact fun a ha => ih a (hp a ha)
    · exact fun a ha => ih a (hp a ha)

/-- One run, whose own answers satisfy `A`. -/
theorem exec_endsIn {P : α → Prop} {env : Env Op Ans} {p : Prog Op Ans α} (hp : p.EndsIn A P)
    {tr : Trace Op Ans} (h : ∀ e ∈ (exec env tr p).2, A e.op e.ans) : P (exec env tr p).1 := by
  induction p generalizing tr with
  | ret a => exact hp
  | call op k ih =>
    rw [exec_call] at h ⊢
    obtain ⟨new, hnew⟩ := exec_grows env (tr ++ [⟨op, env tr op⟩]) (k (env tr op))
    have hans : A op (env tr op) := h ⟨op, env tr op⟩ (by rw [hnew]; simp)
    exact ih _ (hp _ hans) h

end Prog

namespace Act

variable {σ ε : Type}

/-- From a state in `P` and under answers that satisfy `A`, the computation returns a value and a
state in `Q` or throws an error in `E`. -/
def Triple (A : ∀ op, Ans op → Prop) (P : σ → Prop) (m : Act Op Ans σ ε α) (Q : α → σ → Prop)
    (E : ε → Prop) : Prop :=
  ∀ s, P s → (m s).EndsIn A fun r =>
    match r.1 with
    | .ok a => Q a r.2
    | .error e => E e

namespace Triple

variable {A : ∀ op, Ans op → Prop} {P : σ → Prop} {Q : α → σ → Prop} {E : ε → Prop}

theorem conseq {P' : σ → Prop} {Q' : α → σ → Prop} {m : Act Op Ans σ ε α}
    (h : Triple A P m Q E) (hP : ∀ s, P' s → P s) (hQ : ∀ a s, Q a s → Q' a s) :
    Triple A P' m Q' E := by
  intro s hs
  refine (h s (hP s hs)).mono ?_
  rintro ⟨e | a, s'⟩ hr
  · exact hr
  · exact hQ a s' hr

theorem pure {a : α} (h : ∀ s, P s → Q a s) :
    Triple A P (Pure.pure a : Act Op Ans σ ε α) Q E := h

theorem throw {e : ε} (h : E e) :
    Triple A P (MonadExcept.throw e : Act Op Ans σ ε α) Q E := fun _ _ => h

theorem bind {m : Act Op Ans σ ε α} {f : α → Act Op Ans σ ε β} {R : β → σ → Prop}
    (hm : Triple A P m Q E) (hf : ∀ a, Triple A (Q a) (f a) R E) : Triple A P (m >>= f) R E := by
  intro s hs
  refine Prog.EndsIn.bind (hm s hs) ?_
  rintro ⟨e | a, s'⟩ hr
  · exact hr
  · exact hf a s' hr

/-- The state is read; what it satisfies is known of the value. -/
theorem get_bind {f : σ → Act Op Ans σ ε β} {R : β → σ → Prop}
    (hf : ∀ s, P s → Triple A (· = s) (f s) R E) : Triple A P (get >>= f) R E :=
  fun s hs => hf s hs s rfl

theorem modify_bind {g : σ → σ} {f : PUnit → Act Op Ans σ ε β} {R : β → σ → Prop}
    {P' : σ → Prop} (hg : ∀ s, P s → P' (g s)) (hf : Triple A P' (f ⟨⟩) R E) :
    Triple A P (modify g >>= f) R E :=
  fun s hs => hf (g s) (hg s hs)

/-- A call leaves the state alone and gives its answer, read as a value or as an error. -/
theorem call {op : Op} {f : Ans op → Except ε α} (hok : ∀ a v, A op a → f a = .ok v →
    ∀ s, P s → Q v s) (herr : ∀ a e, A op a → f a = .error e → E e) :
    Triple A P (Act.call op f : Act Op Ans σ ε α) Q E := by
  intro s hs a ha
  show match f a with | .ok v => Q v s | .error e => E e
  cases hf : f a with
  | ok v => exact hok a v ha hf s hs
  | error e => exact herr a e ha hf

theorem tell {op : Op} : Triple A P (Act.tell op : Act Op Ans σ ε Unit) (fun _ => P) E :=
  fun _ hs _ _ => hs

theorem tryCatch {m : Act Op Ans σ ε α} {h : ε → Act Op Ans σ ε α} {E' : ε → Prop}
    (hm : Triple A P m Q E) (hh : ∀ e, E e → Triple A (fun _ => True) (h e) Q E') :
    Triple A P (MonadExcept.tryCatch m h) Q E' := by
  intro s hs
  refine Prog.EndsIn.bind (hm s hs) ?_
  rintro ⟨e | a, s'⟩ hr
  · exact hh e hr s' trivial
  · exact hr

theorem race {awaits : Op → Bool} {timer : Op} {fired : Ans timer → Bool}
    {m : Act Op Ans σ ε α} (hm : Triple A P m (fun _ => P) E) :
    Triple A P (m.race awaits timer fired) (fun _ => P) E := by
  intro s hs
  refine Prog.EndsIn.bind (Prog.EndsIn.race (hm s hs)) ?_
  rintro (_ | ⟨e | a, s'⟩) hr
  · exact hs
  · exact hr _ rfl
  · exact hr _ rfl

/-- One run whose own answers satisfy `A`, by how it ended. -/
theorem exec_cases {m : Act Op Ans σ ε α} (h : Triple A P m Q E) {env : Env Op Ans} {s : σ}
    {tr : Trace Op Ans} (hs : P s) (htr : ∀ e ∈ (exec env m s tr).2, A e.op e.ans) :
    (∃ a, (exec env m s tr).1.1 = .ok a ∧ Q a (exec env m s tr).1.2) ∨
      ∃ e, (exec env m s tr).1.1 = .error e ∧ E e := by
  have hend := Prog.exec_endsIn (h s hs) htr
  change match (exec env m s tr).1.1 with
    | .ok a => Q a (exec env m s tr).1.2
    | .error e => E e at hend
  cases hr : (exec env m s tr).1.1 with
  | ok a =>
    rw [hr] at hend
    exact .inl ⟨a, rfl, hend⟩
  | error e =>
    rw [hr] at hend
    exact .inr ⟨e, rfl, hend⟩

end Triple

end Act

end ZTG
