import ZtGateway.Lib.Pool
import ZtGateway.Lib.Prog

/-! Programs that share one object and hold a mutex from their first call on it to their end. Each
call on the object has an outcome that the environment chooses, and processes take their steps in
any order. What a program ensures when it runs alone, every finished call of every interleaving
has, and the finished calls form a chain from the first object to the present one. -/

namespace ZTG

variable {Op : Type} {Ans : Op → Type} {ι ρ σ ω : Type}

/-- From the object `s`, and as long as the outcomes satisfy `A`, the program ends in `Q`. -/
def Prog.Ensures (perform : (op : Op) → ω → σ → Ans op × σ) (A : Op → ω → σ → Prop)
    (Q : ρ → σ → Prop) : Prog Op Ans ρ → σ → Prop
  | .ret r, s => Q r s
  | .call op k, s =>
    ∀ c, A op c s → (k (perform op c s).1).Ensures perform A Q (perform op c s).2

namespace Mutex

/-- `before` is the object when the mutex was taken. -/
inductive Phase (Op : Type) (Ans : Op → Type) (σ ρ : Type) where
  | waiting
  | inside (before : σ) (rest : Prog Op Ans ρ)
  | finished (r : ρ)

structure Done (ι σ ρ : Type) where
  id : ι
  before : σ
  result : ρ
  after : σ

structure Guarded (ι σ ρ : Type) where
  object : σ
  holder : Option ι := none
  log : List (Done ι σ ρ) := []

variable (perform : (op : Op) → ω → σ → Ans op × σ) (prog : ι → Prog Op Ans ρ)

def act (i : ι) (c : ω) :
    Phase Op Ans σ ρ → Guarded ι σ ρ → Option (Phase Op Ans σ ρ × Guarded ι σ ρ)
  | .waiting, g =>
    match g.holder with
    | none => some (.inside g.object (prog i), { g with holder := some i })
    | some _ => none
  | .inside before (.call op k), g =>
    some (.inside before (k (perform op c g.object).1),
      { g with object := (perform op c g.object).2 })
  | .inside before (.ret r), g =>
    some (.finished r, { g with holder := none, log := g.log ++ [⟨i, before, r, g.object⟩] })
  | .finished _, _ => none

theorem act_cases {i : ι} {c : ω} {ph ph' : Phase Op Ans σ ρ} {g g' : Guarded ι σ ρ}
    (h : act perform prog i c ph g = some (ph', g')) :
    (ph = .waiting ∧ g.holder = none ∧ ph' = .inside g.object (prog i) ∧
      g' = { g with holder := some i }) ∨
    (∃ before op k, ph = .inside before (.call op k) ∧
      ph' = .inside before (k (perform op c g.object).1) ∧
      g' = { g with object := (perform op c g.object).2 }) ∨
    ∃ before r, ph = .inside before (.ret r) ∧ ph' = .finished r ∧
      g' = { g with holder := none, log := g.log ++ [⟨i, before, r, g.object⟩] } := by
  cases ph with
  | waiting =>
    unfold act at h
    cases hholder : g.holder with
    | none =>
      simp only [hholder, Option.some.injEq, Prod.mk.injEq] at h
      exact .inl ⟨rfl, rfl, h.1.symm, h.2.symm⟩
    | some j => simp [hholder] at h
  | inside before rest =>
    cases rest with
    | ret r =>
      simp only [act, Option.some.injEq, Prod.mk.injEq] at h
      exact .inr (.inr ⟨before, r, rfl, h.1.symm, h.2.symm⟩)
    | call op k =>
      simp only [act, Option.some.injEq, Prod.mk.injEq] at h
      exact .inr (.inl ⟨before, op, k, rfl, h.1.symm, h.2.symm⟩)
  | finished r => simp [act] at h

def start (s : σ) : Pool ι (Phase Op Ans σ ρ) (Guarded ι σ ρ) :=
  ⟨{ object := s }, fun _ => .waiting⟩

def Allowed (A : Op → ω → σ → Prop) (p : Pool ι (Phase Op Ans σ ρ) (Guarded ι σ ρ)) (m : ι × ω) :
    Prop :=
  ∀ before op k, p.locals m.1 = .inside before (.call op k) → A op m.2 p.shared.object

def Chain (s : σ) : List (Done ι σ ρ) → σ → Prop
  | [], s' => s' = s
  | d :: log, s' => d.before = s ∧ Chain d.after log s'

theorem Chain.snoc {s s' : σ} {log : List (Done ι σ ρ)} (h : Chain s log s') {d : Done ι σ ρ}
    (hd : d.before = s') : Chain s (log ++ [d]) d.after := by
  induction log generalizing s with
  | nil => exact ⟨hd.trans h, rfl⟩
  | cons d' log ih => exact ⟨h.1, ih h.2⟩

section Run

variable (A : Op → ω → σ → Prop) (Q : ι → σ → ρ → σ → Prop) (I : σ → Prop) (first : σ)

/-- the shared part: the log is a chain of calls that did what they ensure -/
structure Serial (g : Guarded ι σ ρ) : Prop where
  once : (g.log.map (·.id)).Nodup
  calls : ∀ d ∈ g.log, Q d.id d.before d.result d.after
  free : g.holder = none → Chain first g.log g.object ∧ I g.object

/-- what is known of process `i`: who is inside has the mutex, and the rest of its program
ensures what the whole of it does -/
def Knows (i : ι) : Phase Op Ans σ ρ → Guarded ι σ ρ → Prop
  | .waiting, g => g.holder ≠ some i ∧ ∀ d ∈ g.log, d.id ≠ i
  | .inside before rest, g =>
    g.holder = some i ∧ (∀ d ∈ g.log, d.id ≠ i) ∧ Chain first g.log before ∧
      rest.Ensures perform A (fun r s => Q i before r s ∧ I s) g.object
  | .finished r, g => g.holder ≠ some i ∧ ∃ d ∈ g.log, d.id = i ∧ d.result = r

variable {perform prog A Q I first}

/-- Another process does not come in between while the mutex is taken. -/
theorem Knows.other {i j : ι} {ph : Phase Op Ans σ ρ} {g g' : Guarded ι σ ρ} (hij : j ≠ i)
    (h : Knows perform A Q I first j ph g) (hfree : g.holder = none ∨ g.holder = some i)
    (hholder : g'.holder ≠ some j)
    (hlog : ∃ new, g'.log = g.log ++ new ∧ ∀ d ∈ new, d.id = i) :
    Knows perform A Q I first j ph g' := by
  obtain ⟨new, hnew, hids⟩ := hlog
  have hnone : (∀ d ∈ g.log, d.id ≠ j) → ∀ d ∈ g'.log, d.id ≠ j := by
    intro hold d hd
    rw [hnew] at hd
    rcases List.mem_append.mp hd with hd | hd
    · exact hold d hd
    · rw [hids d hd]
      exact hij.symm
  cases ph with
  | waiting => exact ⟨hholder, hnone h.2⟩
  | inside before rest =>
    rcases hfree with hfree | hfree
    · rw [h.1] at hfree
      cases hfree
    · rw [h.1] at hfree
      exact absurd (Option.some.inj hfree) hij
  | finished r =>
    obtain ⟨-, d, hd, hid⟩ := h
    exact ⟨hholder, d, hnew ▸ List.mem_append_left new hd, hid⟩

theorem finished_iff {p : Pool ι (Phase Op Ans σ ρ) (Guarded ι σ ρ)}
    (hp : p.Holds (Serial Q I first) (Knows perform A Q I first)) {i : ι} {r : ρ} :
    p.locals i = .finished r ↔ ∃ d ∈ p.shared.log, d.id = i ∧ d.result = r := by
  obtain ⟨hserial, hknows⟩ := hp
  have hi := hknows i
  cases hph : p.locals i with
  | waiting =>
    rw [hph] at hi
    refine iff_of_false (by simp) ?_
    rintro ⟨d, hd, hid, -⟩
    exact hi.2 d hd hid
  | inside before rest =>
    rw [hph] at hi
    refine iff_of_false (by simp) ?_
    rintro ⟨d, hd, hid, -⟩
    exact hi.2.1 d hd hid
  | finished r' =>
    rw [hph] at hi
    obtain ⟨-, d, hd, hid, hr⟩ := hi
    refine ⟨fun h => ⟨d, hd, hid, hr.trans (Phase.finished.inj h)⟩, ?_⟩
    rintro ⟨d', hd', hid', rfl⟩
    obtain rfl := List.inj_on_of_nodup_map hserial.once hd hd' (hid.trans hid'.symm)
    rw [hr]

variable [DecidableEq ι]

theorem step_keeps (hprog : ∀ i s, I s →
      (prog i).Ensures perform A (fun r s' => Q i s r s' ∧ I s') s)
    {p : Pool ι (Phase Op Ans σ ρ) (Guarded ι σ ρ)} {m : ι × ω}
    (hp : p.Holds (Serial Q I first) (Knows perform A Q I first)) (hm : Allowed A p m) :
    (p.step (act perform prog) m).Holds (Serial Q I first) (Knows perform A Q I first) := by
  obtain ⟨hserial, hknows⟩ := id hp
  have hself := hknows m.1
  refine hp.step (fun ph' g' hact => ?_) fun ph' g' hact j hj => ?_
  · rcases act_cases perform prog hact with ⟨hph, hfree, rfl, rfl⟩ |
      ⟨before, op, k, hph, rfl, rfl⟩ | ⟨before, r, hph, rfl, rfl⟩
    · rw [hph] at hself
      obtain ⟨hchain, hI⟩ := hserial.free hfree
      exact ⟨⟨hserial.once, hserial.calls, fun h => by cases h⟩, rfl, hself.2, hchain,
        hprog m.1 _ hI⟩
    · rw [hph] at hself
      obtain ⟨hholder, hnew, hchain, hrest⟩ := hself
      refine ⟨⟨hserial.once, hserial.calls, fun h => ?_⟩, hholder, hnew, hchain,
        hrest m.2 (hm before op k hph)⟩
      rw [show p.shared.holder = none from h] at hholder
      cases hholder
    · rw [hph] at hself
      obtain ⟨hholder, hnew, hchain, hQ, hI⟩ := hself
      refine ⟨⟨?_, ?_, fun _ => ⟨hchain.snoc rfl, hI⟩⟩, by simp, _, List.mem_append_right _
        (List.mem_singleton_self _), rfl, rfl⟩
      · rw [List.map_append]
        refine List.nodup_append.mpr ⟨hserial.once, List.nodup_singleton _, ?_⟩
        intro a ha b hb
        obtain ⟨d, hd, rfl⟩ := List.mem_map.mp ha
        rw [List.mem_singleton.mp hb]
        exact hnew d hd
      · intro d hd
        rcases List.mem_append.mp hd with hd | hd
        · exact hserial.calls d hd
        · rw [List.mem_singleton.mp hd]
          exact hQ
  · rcases act_cases perform prog hact with ⟨hph, hfree, rfl, rfl⟩ |
      ⟨before, op, k, hph, rfl, rfl⟩ | ⟨before, r, hph, rfl, rfl⟩
    · exact (hknows j).other hj (.inl hfree) (fun h => hj (Option.some.inj h).symm)
        ⟨[], by simp, by simp⟩
    · rw [hph] at hself
      refine (hknows j).other hj (.inr hself.1) (fun h => ?_) ⟨[], by simp, by simp⟩
      exact hj (Option.some.inj ((show p.shared.holder = some j from h).symm.trans hself.1))
    · rw [hph] at hself
      exact (hknows j).other hj (.inr hself.1) (by simp) ⟨_, rfl, by simp⟩

theorem run_holds (hprog : ∀ i s, I s →
      (prog i).Ensures perform A (fun r s' => Q i s r s' ∧ I s') s) (hfirst : I first)
    {steps : List (ι × ω)}
    (h : Along (Pool.step (act perform prog)) (Allowed A) (start first) steps) :
    (runSteps (Pool.step (act perform prog)) (start first) steps).Holds (Serial Q I first)
      (Knows perform A Q I first) := by
  refine runSteps_invariant (fun p m hp hm => step_keeps hprog hp hm) ?_ h
  exact ⟨⟨List.nodup_nil, by simp [start], fun _ => ⟨rfl, hfirst⟩⟩, fun i => ⟨by simp [start],
    by simp [start]⟩⟩

end Run

end Mutex

end ZTG
