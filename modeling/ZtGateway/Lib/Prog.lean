import Mathlib.Data.List.Infix
import Mathlib.Tactic

/-! Programs that call out to an environment. A program is a tree of calls, an
environment answers each call and may look at everything that happened before,
and `exec` lists the calls in order together with their answers. `Act` adds a
mutable state and thrown errors; the state survives a throw, as an object that
a callee mutated before throwing does. -/

namespace ZTG

/-- one finished call -/
structure Event (Op : Type) (Ans : Op → Type) where
  op : Op
  ans : Ans op

abbrev Trace (Op : Type) (Ans : Op → Type) := List (Event Op Ans)

abbrev Env (Op : Type) (Ans : Op → Type) := Trace Op Ans → (op : Op) → Ans op

/-- the calls of one kind -/
def Trace.only {Op : Type} {Ans : Op → Type} (f : Op → Bool) (tr : Trace Op Ans) : Trace Op Ans :=
  tr.filter fun e => f e.op

inductive Prog (Op : Type) (Ans : Op → Type) (α : Type) where
  | ret (a : α)
  | call (op : Op) (k : Ans op → Prog Op Ans α)

variable {Op : Type} {Ans : Op → Type} {α β : Type}

@[simp] theorem Trace.only_append (f : Op → Bool) (tr tr' : Trace Op Ans) :
    only f (tr ++ tr') = only f tr ++ only f tr' := List.filter_append ..

@[simp] theorem Trace.only_cons (f : Op → Bool) (e : Event Op Ans) (tr : Trace Op Ans) :
    only f (e :: tr) = if f e.op then e :: only f tr else only f tr := List.filter_cons

@[simp] theorem Trace.only_nil (f : Op → Bool) : only f ([] : Trace Op Ans) = [] := rfl

theorem Trace.only_eq_nil {f : Op → Bool} {tr : Trace Op Ans} (h : ∀ e ∈ tr, f e.op = false) :
    only f tr = [] :=
  List.filter_eq_nil_iff.mpr fun e he => by simp [h e he]

theorem Trace.only_eq_self {f : Op → Bool} {tr : Trace Op Ans} (h : ∀ e ∈ tr, f e.op = true) :
    only f tr = tr :=
  List.filter_eq_self.mpr h

theorem Trace.only_only {f g : Op → Bool} (h : ∀ op, f op = true → g op = true)
    (tr : Trace Op Ans) : only f (only g tr) = only f tr := by
  simp only [only, List.filter_filter]
  congr 1
  funext e
  cases hf : f e.op <;> simp_all

theorem Trace.mem_only {f : Op → Bool} {tr : Trace Op Ans} {e : Event Op Ans} :
    e ∈ only f tr ↔ e ∈ tr ∧ f e.op = true := List.mem_filter

/-- Every event was answered by `env`, from what came before it. -/
def Trace.Answered (env : Env Op Ans) (tr : Trace Op Ans) : Prop :=
  ∀ pre e post, tr = pre ++ e :: post → e.ans = env pre e.op

theorem Trace.Answered.snoc {env : Env Op Ans} {tr : Trace Op Ans} (h : tr.Answered env)
    (op : Op) : Trace.Answered env (tr ++ [⟨op, env tr op⟩]) := by
  intro pre e post heq
  rcases List.eq_nil_or_concat post with rfl | ⟨post, x, rfl⟩
  · obtain ⟨rfl, he⟩ := List.append_inj' heq rfl
    obtain rfl := List.singleton_inj.mp he
    rfl
  · rw [List.concat_eq_append, ← List.cons_append, ← List.append_assoc] at heq
    exact h pre e post (List.append_inj' heq rfl).1

/-- A trace with one call of a kind is cut at that call in one way only. -/
theorem Trace.cut_unique {f : Op → Bool} {pre post pre' post' : Trace Op Ans} {e e' : Event Op Ans}
    (hpre : ∀ x ∈ pre, f x.op = false) (hpost : ∀ x ∈ post, f x.op = false) (he : f e'.op = true)
    (h : pre ++ e :: post = pre' ++ e' :: post') : pre = pre' ∧ e = e' ∧ post = post' := by
  rcases List.append_eq_append_iff.mp h with ⟨mid, rfl, hmid⟩ | ⟨mid, rfl, hmid⟩
  · cases mid with
    | nil => simpa using hmid
    | cons x mid =>
      obtain ⟨-, rfl⟩ := List.cons.inj hmid
      have := hpost e' (by simp)
      simp_all
  · cases mid with
    | nil =>
      obtain ⟨rfl, rfl⟩ := List.cons.inj hmid
      simp
    | cons x mid =>
      obtain ⟨rfl, -⟩ := List.cons.inj hmid
      have := hpre e' (by simp)
      simp_all

namespace Prog

def bind (p : Prog Op Ans α) (f : α → Prog Op Ans β) : Prog Op Ans β :=
  match p with
  | .ret a => f a
  | .call op k => .call op fun a => (k a).bind f

instance : Monad (Prog Op Ans) where
  pure := .ret
  bind := bind

/-- Run against `env`, with `tr` the calls made so far. -/
def exec (env : Env Op Ans) (tr : Trace Op Ans) : Prog Op Ans α → α × Trace Op Ans
  | .ret a => (a, tr)
  | .call op k => exec env (tr ++ [⟨op, env tr op⟩]) (k (env tr op))

@[simp] theorem exec_ret (env : Env Op Ans) (tr : Trace Op Ans) (a : α) :
    exec env tr (.ret a) = (a, tr) := rfl

@[simp] theorem exec_call (env : Env Op Ans) (tr : Trace Op Ans) (op : Op)
    (k : Ans op → Prog Op Ans α) :
    exec env tr (.call op k) = exec env (tr ++ [⟨op, env tr op⟩]) (k (env tr op)) := rfl

@[simp] theorem exec_bind (env : Env Op Ans) (tr : Trace Op Ans) (p : Prog Op Ans α)
    (f : α → Prog Op Ans β) :
    exec env tr (p.bind f) = exec env (exec env tr p).2 (f (exec env tr p).1) := by
  induction p generalizing tr with
  | ret a => rfl
  | call op k ih => exact ih _ _

theorem exec_grows (env : Env Op Ans) (tr : Trace Op Ans) (p : Prog Op Ans α) :
    ∃ new, (exec env tr p).2 = tr ++ new := by
  induction p generalizing tr with
  | ret a => exact ⟨[], by simp⟩
  | call op k ih =>
    obtain ⟨new, hnew⟩ := ih (env tr op) (tr ++ [⟨op, env tr op⟩])
    exact ⟨⟨op, env tr op⟩ :: new, by rw [exec_call, hnew]; simp⟩

theorem exec_answered {env : Env Op Ans} {tr : Trace Op Ans} (h : tr.Answered env)
    (p : Prog Op Ans α) : (exec env tr p).2.Answered env := by
  induction p generalizing tr with
  | ret a => exact h
  | call op k ih => exact ih _ (h.snoc op)

/-- Every call the program can make, under any answers, is allowed. -/
def Uses (allowed : Op → Prop) : Prog Op Ans α → Prop
  | .ret _ => True
  | .call op k => allowed op ∧ ∀ a, (k a).Uses allowed

theorem Uses.bind {allowed : Op → Prop} {p : Prog Op Ans α} {f : α → Prog Op Ans β}
    (hp : p.Uses allowed) (hf : ∀ a, (f a).Uses allowed) : (p.bind f).Uses allowed := by
  induction p with
  | ret a => exact hf a
  | call op k ih => exact ⟨hp.1, fun a => ih a (hp.2 a)⟩

theorem Uses.mono {allowed allowed' : Op → Prop} (h : ∀ op, allowed op → allowed' op)
    {p : Prog Op Ans α} (hp : p.Uses allowed) : p.Uses allowed' := by
  induction p with
  | ret a => trivial
  | call op k ih => exact ⟨h op hp.1, fun a => ih a (hp.2 a)⟩

/-- What a program adds to the trace consists of calls it can make. -/
theorem exec_uses {allowed : Op → Prop} (env : Env Op Ans) {p : Prog Op Ans α} (hp : p.Uses allowed)
    (tr : Trace Op Ans) :
    ∃ new, (exec env tr p).2 = tr ++ new ∧ ∀ e ∈ new, allowed e.op := by
  induction p generalizing tr with
  | ret a => exact ⟨[], by simp, by simp⟩
  | call op k ih =>
    obtain ⟨new, hnew, hall⟩ := ih _ (hp.2 (env tr op)) (tr ++ [⟨op, env tr op⟩])
    refine ⟨⟨op, env tr op⟩ :: new, by rw [exec_call, hnew]; simp, ?_⟩
    intro e he
    rcases List.mem_cons.mp he with rfl | he
    · exact hp.1
    · exact hall e he

/-- Race a program against a timer that can only win while the program waits:
before each awaited call the environment says whether the timer fires first. What
the losing program would still do is not part of this run. -/
def race (awaits : Op → Bool) (timer : Op) (fired : Ans timer → Bool) :
    Prog Op Ans α → Prog Op Ans (Option α)
  | .ret a => .ret (some a)
  | .call op k =>
    if awaits op then
      .call timer fun t =>
        if fired t then .ret none else .call op fun a => race awaits timer fired (k a)
    else .call op fun a => race awaits timer fired (k a)

theorem Uses.race {allowed : Op → Prop} {awaits : Op → Bool} {timer : Op} {fired : Ans timer → Bool}
    (ht : allowed timer) {p : Prog Op Ans α} (hp : p.Uses allowed) :
    (p.race awaits timer fired).Uses allowed := by
  induction p with
  | ret a => trivial
  | call op k ih =>
    have hk : (Prog.call op fun a => (k a).race awaits timer fired).Uses allowed :=
      ⟨hp.1, fun a => ih a (hp.2 a)⟩
    unfold Prog.race
    split_ifs
    · refine ⟨ht, fun t => ?_⟩
      show Prog.Uses allowed (if fired t then _ else _)
      split_ifs
      · trivial
      · exact hk
    · exact hk

/-- Every result the program can have, under any answers, satisfies `P`. -/
def Leaves (P : α → Prop) : Prog Op Ans α → Prop
  | .ret a => P a
  | .call _ k => ∀ a, (k a).Leaves P

theorem Leaves.bind {P : α → Prop} {Q : β → Prop} {p : Prog Op Ans α} {f : α → Prog Op Ans β}
    (hp : p.Leaves P) (hf : ∀ a, P a → (f a).Leaves Q) : (p.bind f).Leaves Q := by
  induction p with
  | ret a => exact hf a hp
  | call op k ih => exact fun a => ih a (hp a)

theorem Leaves.race {P : α → Prop} {awaits : Op → Bool} {timer : Op} {fired : Ans timer → Bool}
    {p : Prog Op Ans α} (hp : p.Leaves P) :
    (p.race awaits timer fired).Leaves fun o => ∀ a, o = some a → P a := by
  induction p with
  | ret a => exact fun b hb => Option.some.inj hb ▸ hp
  | call op k ih =>
    unfold Prog.race
    split_ifs
    · intro t
      show Leaves _ (if fired t then _ else _)
      split_ifs
      · exact fun b hb => by simp at hb
      · exact fun a => ih a (hp a)
    · exact fun a => ih a (hp a)

theorem exec_leaves {P : α → Prop} (env : Env Op Ans) {p : Prog Op Ans α} (hp : p.Leaves P)
    (tr : Trace Op Ans) : P (exec env tr p).1 := by
  induction p generalizing tr with
  | ret a => exact hp
  | call op k ih => exact ih _ (hp _) _

end Prog

/-- A computation with a mutable state `σ` and thrown errors `ε`. -/
def Act (Op : Type) (Ans : Op → Type) (σ ε α : Type) := σ → Prog Op Ans (Except ε α × σ)

namespace Act

variable {σ ε : Type}

def bind (m : Act Op Ans σ ε α) (f : α → Act Op Ans σ ε β) : Act Op Ans σ ε β := fun s =>
  (m s).bind fun r =>
    match r.1 with
    | .ok a => f a r.2
    | .error e => .ret (.error e, r.2)

instance : Monad (Act Op Ans σ ε) where
  pure a := fun s => .ret (.ok a, s)
  bind := bind

instance : MonadExcept ε (Act Op Ans σ ε) where
  throw e := fun s => .ret (.error e, s)
  tryCatch m h := fun s => (m s).bind fun r =>
    match r.1 with
    | .ok a => .ret (.ok a, r.2)
    | .error e => h e r.2

instance : MonadStateOf σ (Act Op Ans σ ε) where
  get := fun s => .ret (.ok s, s)
  set s := fun _ => .ret (.ok ⟨⟩, s)
  modifyGet f := fun s => .ret (.ok (f s).1, (f s).2)

/-- One call, with `f` reading its answer as a value or a thrown error. -/
def call (op : Op) (f : Ans op → Except ε α) : Act Op Ans σ ε α :=
  fun s => .call op fun a => .ret (f a, s)

/-- One call whose answer is not looked at. -/
def tell (op : Op) : Act Op Ans σ ε Unit := fun s => .call op fun _ => .ret (.ok (), s)

/-- The state is left as it was when the timer wins. -/
def race (awaits : Op → Bool) (timer : Op) (fired : Ans timer → Bool) (m : Act Op Ans σ ε α) :
    Act Op Ans σ ε (Option α) := fun s =>
  ((m s).race awaits timer fired).bind fun r =>
    match r with
    | none => .ret (.ok none, s)
    | some (.ok a, s') => .ret (.ok (some a), s')
    | some (.error e, s') => .ret (.error e, s')

/-- Run a computation: its result, the state it leaves and the trace. -/
def exec (env : Env Op Ans) (m : Act Op Ans σ ε α) (s : σ) (tr : Trace Op Ans) :
    (Except ε α × σ) × Trace Op Ans := Prog.exec env tr (m s)

variable {env : Env Op Ans} {s : σ} {tr : Trace Op Ans}

@[simp] theorem exec_pure (a : α) :
    exec env (pure a : Act Op Ans σ ε α) s tr = ((.ok a, s), tr) := rfl

@[simp] theorem exec_throw (e : ε) :
    exec env (throw e : Act Op Ans σ ε α) s tr = ((.error e, s), tr) := rfl

@[simp] theorem exec_get :
    exec env (get : Act Op Ans σ ε σ) s tr = ((.ok s, s), tr) := rfl

@[simp] theorem exec_modify (f : σ → σ) :
    exec env (modify f : Act Op Ans σ ε PUnit) s tr = ((.ok ⟨⟩, f s), tr) := rfl

@[simp] theorem exec_call (op : Op) (f : Ans op → Except ε α) :
    exec env (call op f : Act Op Ans σ ε α) s tr =
      ((f (env tr op), s), tr ++ [⟨op, env tr op⟩]) := rfl

@[simp] theorem exec_tell (op : Op) :
    exec env (tell op : Act Op Ans σ ε Unit) s tr = ((.ok (), s), tr ++ [⟨op, env tr op⟩]) := rfl

theorem exec_bind (m : Act Op Ans σ ε α) (f : α → Act Op Ans σ ε β) :
    exec env (m >>= f) s tr =
      match exec env m s tr with
      | ((.ok a, s'), tr') => exec env (f a) s' tr'
      | ((.error e, s'), tr') => ((.error e, s'), tr') := by
  unfold exec
  show Prog.exec env tr ((m s).bind _) = _
  rw [Prog.exec_bind]
  rcases Prog.exec env tr (m s) with ⟨⟨_ | _, _⟩, _⟩ <;> rfl

theorem exec_tryCatch (m : Act Op Ans σ ε α) (h : ε → Act Op Ans σ ε α) :
    exec env (tryCatch m h) s tr =
      match exec env m s tr with
      | ((.ok a, s'), tr') => ((.ok a, s'), tr')
      | ((.error e, s'), tr') => exec env (h e) s' tr' := by
  unfold exec
  show Prog.exec env tr ((m s).bind _) = _
  rw [Prog.exec_bind]
  rcases Prog.exec env tr (m s) with ⟨⟨_ | _, _⟩, _⟩ <;> rfl

section Race

variable {awaits : Op → Bool} {timer : Op} {fired : Ans timer → Bool}

/-- A race that still waits for `op`: the timer is asked first. -/
theorem exec_race_await {op : Op} (h : awaits op = true) (f : Ans op → α)
    (g : α → Act Op Ans σ ε β) :
    let m : Act Op Ans σ ε α := call op fun a => .ok (f a)
    let tr' := tr ++ [⟨timer, env tr timer⟩]
    exec env (race awaits timer fired (m >>= g)) s tr =
      if fired (env tr timer) then ((.ok none, s), tr')
      else exec env (race awaits timer fired (g (f (env tr' op)))) s
        (tr' ++ [⟨op, env tr' op⟩]) := by
  intro m tr'
  have hrace : race awaits timer fired (m >>= g) s = .call timer fun t =>
      Prog.bind (if fired t then .ret none
        else .call op fun a => (g (f a) s).race awaits timer fired) fun r =>
          match r with
          | none => .ret (.ok none, s)
          | some (.ok a, s') => .ret (.ok (some a), s')
          | some (.error e, s') => .ret (.error e, s') := by
    show Prog.bind (Prog.race awaits timer fired (.call op fun a => g (f a) s)) _ = _
    rw [Prog.race, if_pos h]
    rfl
  unfold exec
  rw [hrace, Prog.exec_call]
  split_ifs with hfired
  · rfl
  · rfl

end Race

/-- What went before a successful `m >>= f`: a successful `m`. -/
theorem bind_ok {m : Act Op Ans σ ε α} {f : α → Act Op Ans σ ε β} {b : β} {s' : σ}
    {tr' : Trace Op Ans} (h : exec env (m >>= f) s tr = ((.ok b, s'), tr')) :
    ∃ a s₁ tr₁, exec env m s tr = ((.ok a, s₁), tr₁) ∧
      exec env (f a) s₁ tr₁ = ((.ok b, s'), tr') := by
  rw [exec_bind] at h
  rcases hm : exec env m s tr with ⟨⟨_ | a, s₁⟩, tr₁⟩
  · rw [hm] at h; simp at h
  · rw [hm] at h; exact ⟨a, s₁, tr₁, rfl, h⟩

/-- Every call the computation can make, from any state, is allowed. -/
def Uses (allowed : Op → Prop) (m : Act Op Ans σ ε α) : Prop := ∀ s, (m s).Uses allowed

namespace Uses

variable {allowed : Op → Prop}

theorem mono {allowed' : Op → Prop} (h : ∀ op, allowed op → allowed' op) {m : Act Op Ans σ ε α}
    (hm : m.Uses allowed) : m.Uses allowed' := fun s => (hm s).mono h

theorem pure (a : α) : Uses allowed (Pure.pure a : Act Op Ans σ ε α) := fun _ => trivial

theorem throw (e : ε) : Uses allowed (MonadExcept.throw e : Act Op Ans σ ε α) := fun _ => trivial

theorem get : Uses allowed (MonadState.get : Act Op Ans σ ε σ) := fun _ => trivial

theorem modify (f : σ → σ) :
    Uses allowed (modifyGet fun s => (PUnit.unit, f s) : Act Op Ans σ ε PUnit) := fun _ => trivial

theorem call {op : Op} (h : allowed op) (f : Ans op → Except ε α) :
    Uses allowed (Act.call op f : Act Op Ans σ ε α) := fun _ => ⟨h, fun _ => trivial⟩

theorem tell {op : Op} (h : allowed op) : Uses allowed (Act.tell op : Act Op Ans σ ε Unit) :=
  fun _ => ⟨h, fun _ => trivial⟩

theorem bind {m : Act Op Ans σ ε α} {f : α → Act Op Ans σ ε β} (hm : m.Uses allowed)
    (hf : ∀ a, (f a).Uses allowed) : Uses allowed (m >>= f) := by
  intro s
  refine Prog.Uses.bind (hm s) ?_
  rintro ⟨_ | a, s'⟩
  · trivial
  · exact hf a s'

theorem tryCatch {m : Act Op Ans σ ε α} {h : ε → Act Op Ans σ ε α} (hm : m.Uses allowed)
    (hh : ∀ e, (h e).Uses allowed) : Uses allowed (MonadExcept.tryCatch m h) := by
  intro s
  refine Prog.Uses.bind (hm s) ?_
  rintro ⟨e | a, s'⟩
  · exact hh e s'
  · trivial

theorem race {awaits : Op → Bool} {timer : Op} {fired : Ans timer → Bool} {m : Act Op Ans σ ε α}
    (ht : allowed timer) (hm : m.Uses allowed) : (m.race awaits timer fired).Uses allowed := by
  intro s
  refine Prog.Uses.bind (Prog.Uses.race ht (hm s)) ?_
  rintro (_ | ⟨_ | _, _⟩) <;> trivial

end Uses

/-- What a computation adds to the trace consists of calls it can make. -/
theorem exec_uses {allowed : Op → Prop} {m : Act Op Ans σ ε α} (hm : m.Uses allowed)
    (env : Env Op Ans) (s : σ) (tr : Trace Op Ans) :
    ∃ new, (exec env m s tr).2 = tr ++ new ∧ ∀ e ∈ new, allowed e.op :=
  Prog.exec_uses env (hm s) tr

/-- Every value the computation can return satisfies `P`. -/
def Returns (P : α → Prop) (m : Act Op Ans σ ε α) : Prop :=
  ∀ env s tr a s' tr', exec env m s tr = ((.ok a, s'), tr') → P a

theorem Returns.pure {P : α → Prop} {a : α} (h : P a) :
    Returns P (Pure.pure a : Act Op Ans σ ε α) := by
  intro env s tr b s' tr' he
  simp only [exec_pure, Prod.mk.injEq, Except.ok.injEq] at he
  exact he.1.1 ▸ h

theorem Returns.throw {P : α → Prop} (e : ε) :
    Returns P (MonadExcept.throw e : Act Op Ans σ ε α) := by
  intro env s tr b s' tr' he
  simp at he

theorem Returns.bind {P : β → Prop} {m : Act Op Ans σ ε α} {f : α → Act Op Ans σ ε β}
    (hf : ∀ a, (f a).Returns P) : Returns P (m >>= f) := by
  intro env s tr b s' tr' he
  obtain ⟨a, s₁, tr₁, -, h⟩ := bind_ok he
  exact hf a _ _ _ _ _ _ h

/-- A value the computation cannot return was not returned. -/
theorem Returns.not_ok {m : Act Op Ans σ ε α} {a : α} {s' : σ} {tr' : Trace Op Ans}
    (hm : m.Returns (· ≠ a)) :
    exec env m s tr ≠ ((.ok a, s'), tr') := fun h => hm env s tr a s' tr' h rfl

/-- Every call the computation can make is allowed, and every value it can return satisfies `P`. -/
structure Within (allowed : Op → Prop) (P : α → Prop) (m : Act Op Ans σ ε α) : Prop where
  uses : m.Uses allowed
  returns : m.Returns P

namespace Within

variable {allowed : Op → Prop}

theorem pure {P : α → Prop} {a : α} (h : P a) :
    Within allowed P (Pure.pure a : Act Op Ans σ ε α) := ⟨.pure a, .pure h⟩

theorem throw {P : α → Prop} (e : ε) :
    Within allowed P (MonadExcept.throw e : Act Op Ans σ ε α) := ⟨.throw e, .throw e⟩

theorem bind {P : β → Prop} {m : Act Op Ans σ ε α} {f : α → Act Op Ans σ ε β}
    (hm : m.Uses allowed) (hf : ∀ a, (f a).Within allowed P) : Within allowed P (m >>= f) :=
  ⟨.bind hm fun a => (hf a).uses, .bind fun a => (hf a).returns⟩

end Within

/-- The computation never throws and leaves the state alone. -/
def Succeeds (m : Act Op Ans σ ε α) : Prop := ∀ s, (m s).Leaves fun r => r.2 = s ∧ ∃ a, r.1 = .ok a

namespace Succeeds

theorem pure (a : α) : Succeeds (Pure.pure a : Act Op Ans σ ε α) := fun _ => ⟨rfl, a, rfl⟩

theorem call {op : Op} (f : Ans op → α) :
    Succeeds (Act.call op (fun a => .ok (f a)) : Act Op Ans σ ε α) :=
  fun _ a => ⟨rfl, f a, rfl⟩

theorem tell (op : Op) : Succeeds (Act.tell op : Act Op Ans σ ε Unit) := fun _ _ => ⟨rfl, (), rfl⟩

theorem bind {m : Act Op Ans σ ε α} {f : α → Act Op Ans σ ε β} (hm : m.Succeeds)
    (hf : ∀ a, (f a).Succeeds) : Succeeds (m >>= f) := by
  intro s
  refine Prog.Leaves.bind (hm s) ?_
  rintro ⟨r, s'⟩ ⟨rfl, a, rfl⟩
  exact hf a _

theorem race {awaits : Op → Bool} {timer : Op} {fired : Ans timer → Bool} {m : Act Op Ans σ ε α}
    (hm : m.Succeeds) : (m.race awaits timer fired).Succeeds := by
  intro s
  refine Prog.Leaves.bind (Prog.Leaves.race (hm s)) ?_
  rintro (_ | ⟨r, s'⟩) h
  · exact ⟨rfl, none, rfl⟩
  · obtain ⟨rfl, a, rfl⟩ := h _ rfl
    exact ⟨rfl, some a, rfl⟩

theorem exec_ok {m : Act Op Ans σ ε α} (hm : m.Succeeds) (env : Env Op Ans) (s : σ)
    (tr : Trace Op Ans) : ∃ a tr', exec env m s tr = ((.ok a, s), tr') := by
  obtain ⟨hs, a, ha⟩ := Prog.exec_leaves env (hm s) tr
  exact ⟨a, _, Prod.ext (Prod.ext ha hs) rfl⟩

end Succeeds

end Act

end ZTG
