import Mathlib.Data.List.Basic
import Mathlib.Tactic

/-! The low bits of a word as a list, most significant bit first. A shift register that takes in
digits and gives out digits of another size is followed through this list. -/

namespace ZTG

variable {w v : ℕ}

def lowBits (x : BitVec w) : ℕ → List Bool
  | 0 => []
  | n + 1 => x.getLsbD n :: lowBits x n

@[simp] theorem length_lowBits (x : BitVec w) (n : ℕ) : (lowBits x n).length = n := by
  induction n with
  | zero => rfl
  | succ n ih => rw [lowBits, List.length_cons, ih]

theorem lowBits_congr {x : BitVec w} {y : BitVec v} {n : ℕ}
    (h : ∀ i < n, x.getLsbD i = y.getLsbD i) : lowBits x n = lowBits y n := by
  induction n with
  | zero => rfl
  | succ n ih =>
    rw [lowBits, lowBits, h n (Nat.lt_succ_self n),
      ih fun i hi => h i (Nat.lt_succ_of_lt hi)]

/-- The upper part of the bits is what a shift to the right leaves. -/
theorem lowBits_add (x : BitVec w) (m n : ℕ) :
    lowBits x (m + n) = lowBits (x >>> n) m ++ lowBits x n := by
  induction m with
  | zero => rw [Nat.zero_add, lowBits, List.nil_append]
  | succ m ih =>
    rw [show m + 1 + n = m + n + 1 by omega, lowBits, ih, lowBits, List.cons_append,
      BitVec.getLsbD_ushiftRight, Nat.add_comm n m]

theorem getLsbD_of_lowBits {x : BitVec w} {y : BitVec v} {n : ℕ}
    (h : lowBits x n = lowBits y n) : ∀ i < n, x.getLsbD i = y.getLsbD i := by
  induction n with
  | zero => exact fun i hi => absurd hi (Nat.not_lt_zero i)
  | succ n ih =>
    rw [lowBits, lowBits, List.cons.injEq] at h
    intro i hi
    rcases Nat.lt_succ_iff_lt_or_eq.mp hi with hlt | rfl
    · exact ih h.2 i hlt
    · exact h.1

theorem lowBits_injective : Function.Injective fun x : BitVec w => lowBits x w := by
  intro x y h
  exact BitVec.eq_of_getLsbD_eq fun i hi => getLsbD_of_lowBits h i hi

/-- A register that holds `n` bits takes in a digit of `k` bits; what it held before these is
pushed up and never cleared. -/
theorem lowBits_push {x y : BitVec w} {n k : ℕ} (hfit : n + k ≤ w)
    (hdigit : ∀ i, k ≤ i → y.getLsbD i = false) :
    lowBits ((x <<< k) ||| y) (n + k) = lowBits x n ++ lowBits y k := by
  rw [lowBits_add]
  congr 1
  · refine lowBits_congr fun i hi => ?_
    rw [BitVec.getLsbD_ushiftRight, BitVec.getLsbD_or, hdigit (k + i) (Nat.le_add_right k i),
      Bool.or_false, BitVec.getLsbD_shiftLeft]
    have hlt : k + i < w := by omega
    have hge : ¬ k + i < k := by omega
    rw [Nat.add_sub_cancel_left]
    simp only [hlt, hge, decide_true, decide_false, Bool.true_and, Bool.not_false]
  · refine lowBits_congr fun i hi => ?_
    rw [BitVec.getLsbD_or, BitVec.getLsbD_shiftLeft]
    simp only [hi, decide_true, Bool.not_true, Bool.and_false, Bool.false_and, Bool.false_or]

/-- A mask of ones keeps the bits under it. -/
theorem lowBits_and_mask {x m : BitVec w} {k : ℕ} (h : ∀ i < k, m.getLsbD i = true) :
    lowBits (x &&& m) k = lowBits x k := by
  refine lowBits_congr fun i hi => ?_
  rw [BitVec.getLsbD_and, h i hi, Bool.and_true]

theorem lowBits_setWidth (x : BitVec w) {n : ℕ} (h : n ≤ v) :
    lowBits (x.setWidth v) n = lowBits x n := by
  refine lowBits_congr fun i hi => ?_
  have hlt : i < v := by omega
  simp only [BitVec.getLsbD_setWidth, hlt, decide_true, Bool.true_and]

theorem length_flatMap_digits {α : Type} {f : α → List Bool} {k : ℕ} (hk : ∀ a, (f a).length = k)
    (l : List α) : (l.flatMap f).length = k * l.length := by
  induction l with
  | nil => rfl
  | cons a l ih =>
    rw [List.flatMap_cons, List.length_append, ih, hk, List.length_cons, Nat.mul_succ,
      Nat.add_comm]

/-- Two streams of whole digits that agree up to less than a digit at the end are the same. -/
theorem flatMap_digits_inj {α : Type} {f : α → List Bool} {k : ℕ} (hf : Function.Injective f)
    (hk : ∀ a, (f a).length = k) {l l' : List α} {r r' : List Bool}
    (h : l.flatMap f ++ r = l'.flatMap f ++ r') (hr : r.length < k) (hr' : r'.length < k) :
    l = l' ∧ r = r' := by
  induction l generalizing l' with
  | nil =>
    cases l' with
    | nil => exact ⟨rfl, h⟩
    | cons a l' =>
      have hlen := congrArg List.length h
      simp only [List.flatMap_nil, List.nil_append, List.flatMap_cons, List.length_append,
        hk] at hlen
      omega
  | cons a l ih =>
    cases l' with
    | nil =>
      have hlen := congrArg List.length h
      simp only [List.flatMap_nil, List.nil_append, List.flatMap_cons, List.length_append,
        hk] at hlen
      omega
    | cons b l' =>
      rw [List.flatMap_cons, List.flatMap_cons, List.append_assoc, List.append_assoc] at h
      obtain ⟨hab, hrest⟩ := List.append_inj h (by rw [hk, hk])
      obtain ⟨rfl, hr⟩ := ih hrest
      exact ⟨by rw [hf hab], hr⟩

end ZTG
