import Mathlib.Data.List.Nodup
import Mathlib.Tactic

/-! JavaScript's `Map`: entries in insertion order, one for each key. Setting a key
that is there changes its value in place; a new key goes to the back. -/

namespace ZTG

structure JsMap (K V : Type) where
  entries : List (K × V)
  nodup : (entries.map Prod.fst).Nodup

namespace JsMap

variable {K V : Type} [DecidableEq K]

def empty : JsMap K V := ⟨[], List.nodup_nil⟩

def get (m : JsMap K V) (k : K) : Option V := (m.entries.find? fun e => e.1 = k).map Prod.snd

def size (m : JsMap K V) : ℕ := m.entries.length

/-- The entries that `p` keeps. -/
def filter (m : JsMap K V) (p : K → V → Bool) : JsMap K V :=
  ⟨m.entries.filter fun e => p e.1 e.2, m.nodup.sublist (List.filter_sublist.map _)⟩

def delete (m : JsMap K V) (k : K) : JsMap K V := m.filter fun k' _ => k' ≠ k

/-- the key that has been in the map for longest -/
def oldest (m : JsMap K V) : Option K := m.entries.head?.map Prod.fst

private def replace (es : List (K × V)) (k : K) (v : V) : List (K × V) :=
  es.map fun e => if e.1 = k then (k, v) else e

private theorem keys_replace (es : List (K × V)) (k : K) (v : V) :
    (replace es k v).map Prod.fst = es.map Prod.fst := by
  rw [replace, List.map_map]
  refine List.map_congr_left fun e _ => ?_
  by_cases h : e.1 = k
  · simp [h]
  · simp [h]

def set (m : JsMap K V) (k : K) (v : V) : JsMap K V :=
  if h : k ∈ m.entries.map Prod.fst then
    ⟨replace m.entries k v, by rw [keys_replace]; exact m.nodup⟩
  else
    ⟨m.entries ++ [(k, v)], by
      rw [List.map_append]
      exact m.nodup.append (List.nodup_singleton k) (by simpa using h)⟩

variable {m : JsMap K V} {k k' : K} {v v' : V}

@[simp] theorem get_empty : (empty : JsMap K V).get k = none := rfl

theorem get_eq_some : m.get k = some v ↔ (k, v) ∈ m.entries := by
  obtain ⟨es, hn⟩ := m
  show (es.find? fun e => e.1 = k).map Prod.snd = some v ↔ (k, v) ∈ es
  induction es with
  | nil => simp
  | cons e es ih =>
    obtain ⟨k', v'⟩ := e
    simp only [List.map_cons, List.nodup_cons] at hn
    by_cases hk : k' = k
    · subst hk
      have hout : ∀ w, (k', w) ∉ es := fun w hw => hn.1 (List.mem_map_of_mem hw)
      simp only [List.find?_cons, decide_true, Option.map_some, Option.some.injEq, List.mem_cons,
        Prod.mk.injEq, true_and, hout, or_false]
      exact eq_comm
    · have hk' : k ≠ k' := fun h => hk h.symm
      simp only [List.find?_cons, hk, decide_false, List.mem_cons,
        Prod.mk.injEq, hk', false_and, false_or]
      exact ih hn.2

theorem get_eq_none : m.get k = none ↔ k ∉ m.entries.map Prod.fst := by
  rw [Option.eq_none_iff_forall_ne_some]
  constructor
  · intro h hk
    obtain ⟨⟨k', v⟩, he, rfl⟩ := List.mem_map.mp hk
    exact h v (get_eq_some.mpr he)
  · intro h v hv
    exact h (List.mem_map_of_mem (get_eq_some.mp hv))

theorem get_filter (p : K → V → Bool) : (m.filter p).get k = (m.get k).filter (p k) := by
  refine Option.ext fun v => ?_
  rw [get_eq_some, Option.filter_eq_some_iff, get_eq_some]
  simp [filter]

theorem get_delete : (m.delete k).get k' = if k' = k then none else m.get k' := by
  rw [delete, get_filter]
  split_ifs with h
  · cases m.get k' <;> simp [h]
  · cases m.get k' <;> simp [h]

@[simp] theorem get_delete_self : (m.delete k).get k = none := by simp [get_delete]

theorem get_delete_ne (h : k' ≠ k) : (m.delete k).get k' = m.get k' := by simp [get_delete, h]

theorem set_of_absent (h : m.get k = none) : (m.set k v).entries = m.entries ++ [(k, v)] := by
  rw [set, dif_neg (get_eq_none.mp h)]

theorem mem_set : (k', v') ∈ (m.set k v).entries ↔
    if k' = k then v' = v else (k', v') ∈ m.entries := by
  unfold set
  split_ifs with hk h h
  · subst h
    simp only [replace, List.mem_map]
    constructor
    · rintro ⟨e, -, he⟩
      split_ifs at he with h
      · exact (Prod.ext_iff.mp he).2.symm
      · exact absurd (Prod.ext_iff.mp he).1 h
    · rintro rfl
      obtain ⟨e, he, rfl⟩ := List.mem_map.mp hk
      exact ⟨e, he, by simp⟩
  · simp only [replace, List.mem_map]
    constructor
    · rintro ⟨e, he, heq⟩
      split_ifs at heq with h'
      · exact absurd (Prod.ext_iff.mp heq).1.symm h
      · exact heq ▸ he
    · exact fun he => ⟨_, he, by simp [h]⟩
  · subst h
    have hout : (k', v') ∉ m.entries := fun he => hk (List.mem_map_of_mem he)
    simp [hout]
  · simp [h]

theorem get_set : (m.set k v).get k' = if k' = k then some v else m.get k' := by
  refine Option.ext fun w => ?_
  rw [get_eq_some, mem_set]
  split_ifs with h
  · simp [eq_comm]
  · exact get_eq_some.symm

@[simp] theorem get_set_self : (m.set k v).get k = some v := by simp [get_set]

theorem get_set_ne (h : k' ≠ k) : (m.set k v).get k' = m.get k' := by simp [get_set, h]

theorem get_set_eq (m : JsMap K V) (k : K) (v : V) :
    (m.set k v).get = Function.update m.get k (some v) := by
  funext k'
  rw [get_set, Function.update_apply]

theorem get_delete_eq (m : JsMap K V) (k : K) :
    (m.delete k).get = Function.update m.get k none := by
  funext k'
  rw [get_delete, Function.update_apply]

end JsMap

end ZTG
