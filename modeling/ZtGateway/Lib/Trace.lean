import ZtGateway.Lib.Prog

/-! Conditions on the events of a trace that look back at what came before each of them. -/

namespace ZTG.Trace

variable {Op : Type} {Ans : Op → Type} {P : Trace Op Ans → Event Op Ans → Prop}
  {tr new : Trace Op Ans}

/-- `P` holds of each event and the trace before it. -/
def Each (P : Trace Op Ans → Event Op Ans → Prop) (tr : Trace Op Ans) : Prop :=
  ∀ pre e post, tr = pre ++ e :: post → P pre e

theorem each_nil : Each P [] := by
  intro pre e post h
  simp at h

theorem Each.snoc {e : Event Op Ans} (h : Each P tr) (he : P tr e) : Each P (tr ++ [e]) := by
  intro pre x post heq
  rcases List.eq_nil_or_concat post with rfl | ⟨post, y, rfl⟩
  · obtain ⟨rfl, hx⟩ := List.append_inj' heq rfl
    obtain rfl := List.singleton_inj.mp hx
    exact he
  · rw [List.concat_eq_append, ← List.cons_append, ← List.append_assoc] at heq
    exact h pre x post (List.append_inj' heq rfl).1

/-- A trace that goes on: what is new is judged with all that came before. -/
theorem Each.append (h : Each P tr) (hnew : Each (fun pre e => P (tr ++ pre) e) new) :
    Each P (tr ++ new) := by
  induction new using List.reverseRecOn with
  | nil => simpa using h
  | append_singleton new e ih =>
    rw [← List.append_assoc]
    refine Each.snoc (ih fun pre x post heq => ?_) (hnew new e [] rfl)
    exact hnew pre x (post ++ [e]) (by rw [heq]; simp)

end ZTG.Trace
