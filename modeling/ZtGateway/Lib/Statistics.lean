import Mathlib.Algebra.BigOperators.Group.List.Basic
import Mathlib.Algebra.Order.BigOperators.Group.List
import Mathlib.Tactic

/-! Mean and sample variance of a list, and how they change when a value is added at the end.
The divisor of the variance is one less than the length. -/

namespace ZTG

namespace Statistics

variable {K : Type} [Field K]

def mean (xs : List K) : K := xs.sum / xs.length

/-- the squared deviations from the mean, summed -/
def spread (xs : List K) : K := (xs.map fun x => (x - mean xs) ^ 2).sum

def sampleVariance (xs : List K) : K :=
  if xs.length = 1 then 0 else spread xs / (xs.length - 1)

variable [CharZero K]

theorem mean_snoc (xs : List K) (x : K) :
    mean (xs ++ [x]) = mean xs + (x - mean xs) / (xs.length + 1) := by
  unfold mean
  rw [List.sum_append, List.sum_singleton, List.length_append, List.length_singleton]
  rcases eq_or_ne xs [] with rfl | hne
  · simp
  · have hlength : (xs.length : K) ≠ 0 := by simpa using hne
    have hsucc : (xs.length : K) + 1 ≠ 0 := Nat.cast_add_one_ne_zero _
    push_cast
    field_simp
    ring

theorem spread_eq (xs : List K) :
    spread xs = (xs.map (· ^ 2)).sum - xs.sum ^ 2 / xs.length := by
  have hexpand : ∀ (c : K) (ys : List K), (ys.map fun y => (y - c) ^ 2).sum =
      (ys.map (· ^ 2)).sum - 2 * c * ys.sum + ys.length * c ^ 2 := by
    intro c ys
    induction ys with
    | nil => simp
    | cons y ys ih =>
      rw [List.map_cons, List.map_cons, List.sum_cons, List.sum_cons, List.sum_cons, ih,
        List.length_cons]
      push_cast
      ring
  unfold spread
  rw [hexpand]
  unfold mean
  rcases eq_or_ne xs [] with rfl | hne
  · simp
  · have hlength : (xs.length : K) ≠ 0 := by simpa using hne
    field_simp
    ring

/-- The new deviation counts once from the old mean and once from the new one. -/
theorem spread_snoc {xs : List K} (hne : xs ≠ []) (x : K) :
    spread (xs ++ [x]) = spread xs + (x - mean xs) * (x - mean (xs ++ [x])) := by
  have hlength : (xs.length : K) ≠ 0 := by simpa using hne
  have hsucc : (xs.length : K) + 1 ≠ 0 := Nat.cast_add_one_ne_zero _
  rw [spread_eq, spread_eq]
  unfold mean
  rw [List.map_append, List.sum_append, List.sum_append, List.length_append]
  simp only [List.map_cons, List.map_nil, List.sum_singleton, List.length_singleton]
  push_cast
  field_simp
  ring

theorem sub_one_mul_sampleVariance (xs : List K) :
    ((xs.length : K) - 1) * sampleVariance xs = spread xs := by
  unfold sampleVariance
  split_ifs with hone
  · obtain ⟨x, rfl⟩ := List.length_eq_one_iff.mp hone
    simp [spread, mean]
  · have hsub : (xs.length : K) - 1 ≠ 0 := sub_ne_zero.mpr (by exact_mod_cast hone)
    exact mul_div_cancel₀ _ hsub

theorem sampleVariance_snoc {xs : List K} (hne : xs ≠ []) (x : K) :
    sampleVariance (xs ++ [x]) =
      (((xs.length : K) - 1) * sampleVariance xs +
        (x - mean xs) * (x - mean (xs ++ [x]))) / xs.length := by
  have hlength : (xs ++ [x]).length = xs.length + 1 := by simp
  have hone : (xs ++ [x]).length ≠ 1 := by simpa using hne
  rw [sub_one_mul_sampleVariance, ← spread_snoc hne, sampleVariance, if_neg hone, hlength]
  push_cast
  rw [add_sub_cancel_right]

theorem sampleVariance_nonneg {F : Type} [Field F] [LinearOrder F] [IsStrictOrderedRing F]
    (xs : List F) : 0 ≤ sampleVariance xs := by
  have hspread : 0 ≤ spread xs := by
    refine List.sum_nonneg fun y hy => ?_
    obtain ⟨x, -, rfl⟩ := List.mem_map.mp hy
    exact sq_nonneg _
  unfold sampleVariance
  split_ifs with hone
  · exact le_rfl
  · rcases Nat.eq_zero_or_pos xs.length with hzero | hpos
    · rw [List.length_eq_zero_iff.mp hzero]
      simp [spread]
    · refine div_nonneg hspread (sub_nonneg.mpr ?_)
      exact_mod_cast hpos

end Statistics

end ZTG
