import Mathlib.Logic.Function.Basic
import Mathlib.Tactic

/-! Maps whose values expire. A reader sees the values whose deadline is still ahead, so
a map that drops what has expired and one that never drops anything look the same to every
reader from then on. -/

namespace ZTG

variable {K V T : Type} [LinearOrder T] {deadline : V → T} {now now' : T}

/-- what a reader sees of an entry -/
def unexpired (deadline : V → T) (now : T) (o : Option V) : Option V :=
  o.filter fun v => decide (now < deadline v)

theorem unexpired_eq_some {o : Option V} {v : V} :
    unexpired deadline now o = some v ↔ o = some v ∧ now < deadline v := by
  rw [unexpired, Option.filter_eq_some_iff]
  simp

theorem unexpired_eq_none {o : Option V} :
    unexpired deadline now o = none ↔ ∀ v, o = some v → deadline v ≤ now := by
  cases o with
  | none => simp [unexpired]
  | some v => simp [unexpired, Option.filter_some]

theorem isSome_unexpired_some {v : V} :
    (unexpired deadline now (some v)).isSome = true ↔ now < deadline v := by
  by_cases hv : now < deadline v
  · simp [unexpired, Option.filter_some, hv]
  · simp [unexpired, Option.filter_some, hv]

@[simp] theorem unexpired_none : unexpired deadline now none = none := rfl

/-- A later reader loses nothing by looking through an earlier one. -/
theorem unexpired_later (h : now ≤ now') (o : Option V) :
    unexpired deadline now' (unexpired deadline now o) = unexpired deadline now' o := by
  refine Option.ext fun v => ?_
  rw [unexpired_eq_some, unexpired_eq_some, unexpired_eq_some]
  constructor
  · rintro ⟨⟨ho, -⟩, hv⟩
    exact ⟨ho, hv⟩
  · rintro ⟨ho, hv⟩
    exact ⟨⟨ho, h.trans_lt hv⟩, hv⟩

/-- No reader from `now` on tells the two maps apart. -/
def ReadAlike (deadline : V → T) (now : T) (m m' : K → Option V) : Prop :=
  ∀ k, unexpired deadline now (m k) = unexpired deadline now (m' k)

namespace ReadAlike

variable {m m' m'' : K → Option V} {k : K}

theorem refl (deadline : V → T) (now : T) (m : K → Option V) : ReadAlike deadline now m m :=
  fun _ => rfl

theorem symm (h : ReadAlike deadline now m m') : ReadAlike deadline now m' m :=
  fun k => (h k).symm

theorem trans (h : ReadAlike deadline now m m') (h' : ReadAlike deadline now m' m'') :
    ReadAlike deadline now m m'' := fun k => (h k).trans (h' k)

theorem later (h : ReadAlike deadline now m m') (ht : now ≤ now') :
    ReadAlike deadline now' m m' := by
  intro k
  have hk := congrArg (unexpired deadline now') (h k)
  rwa [unexpired_later ht, unexpired_later ht] at hk

variable [DecidableEq K]

/-- Both maps are written in the same way. -/
theorem update (h : ReadAlike deadline now m m') (k : K) (o : Option V) :
    ReadAlike deadline now (Function.update m k o) (Function.update m' k o) := by
  intro j
  by_cases hj : j = k
  · subst hj
    rw [Function.update_self, Function.update_self]
  · rw [Function.update_of_ne hj, Function.update_of_ne hj]
    exact h j

/-- Dropping what no reader sees. -/
theorem drop (h : unexpired deadline now (m k) = none) :
    ReadAlike deadline now (Function.update m k none) m := by
  intro j
  by_cases hj : j = k
  · subst hj
    rw [Function.update_self, h, unexpired_none]
  · rw [Function.update_of_ne hj]

end ReadAlike

variable [DecidableEq K]

/-- Read a key, dropping an entry whose deadline has passed. -/
def fetch (deadline : V → T) (now : T) (m : K → Option V) (k : K) : Option V × (K → Option V) :=
  match m k with
  | none => (none, m)
  | some v => if deadline v ≤ now then (none, Function.update m k none) else (some v, m)

theorem fetch_fst (m : K → Option V) (k : K) :
    (fetch deadline now m k).1 = unexpired deadline now (m k) := by
  unfold fetch
  cases m k with
  | none => rfl
  | some v =>
    by_cases hv : deadline v ≤ now
    · simp [unexpired, Option.filter_some, hv, not_lt.mpr hv]
    · simp [unexpired, Option.filter_some, hv, not_le.mp hv]

theorem fetch_snd (m : K → Option V) (k : K) : ReadAlike deadline now (fetch deadline now m k).2 m := by
  unfold fetch
  cases h : m k with
  | none => exact ReadAlike.refl deadline now m
  | some v =>
    by_cases hv : deadline v ≤ now
    · simp only [hv, ↓reduceIte]
      refine ReadAlike.drop ?_
      rw [h, unexpired_eq_none]
      intro w hw
      rwa [← Option.some.inj hw]
    · simp only [hv, ↓reduceIte]
      exact ReadAlike.refl deadline now m

/-- A read brings in nothing new. -/
theorem of_fetch_snd {m : K → Option V} {k j : K} {v : V}
    (h : (fetch deadline now m k).2 j = some v) : m j = some v := by
  unfold fetch at h
  cases hk : m k with
  | none => simpa [hk] using h
  | some w =>
    simp only [hk] at h
    split_ifs at h
    · by_cases hj : j = k
      · subst hj
        simp at h
      · simpa [Function.update_of_ne hj] using h
    · exact h

/-- Maps that look the same are read the same, and look the same afterwards. -/
theorem ReadAlike.fetch {m m' : K → Option V} (h : ReadAlike deadline now m m') (k : K) :
    (ZTG.fetch deadline now m k).1 = unexpired deadline now (m' k) ∧
      ReadAlike deadline now (ZTG.fetch deadline now m k).2 m' :=
  ⟨(fetch_fst m k).trans (h k), (fetch_snd m k).trans h⟩

end ZTG
