import Mathlib.Data.List.Infix
import Mathlib.Tactic

/-! Texts joined with a separator. Three of them are determined by their join exactly when none
holds the separator; otherwise any two separators cut the join into three. -/

namespace ZTG

variable {α : Type}

def join3 (sep : α) (a b c : List α) : List α := a ++ sep :: (b ++ sep :: c)

variable {sep : α} {a b c a' b' c' : List α}

theorem cut_inj (ha : sep ∉ a) (ha' : sep ∉ a') {r r' : List α}
    (h : a ++ sep :: r = a' ++ sep :: r') : a = a' ∧ r = r' := by
  rcases List.append_eq_append_iff.mp h with ⟨mid, rfl, hmid⟩ | ⟨mid, rfl, hmid⟩ <;> cases mid with
  | nil => simp_all
  | cons x mid =>
    obtain ⟨rfl, -⟩ := List.cons.inj hmid
    simp at ha ha'

/-- The parts are determined once it is known where the first two end. -/
theorem join3_inj_of_length (ha : a.length = a'.length) (hb : b.length = b'.length)
    (h : join3 sep a b c = join3 sep a' b' c') : a = a' ∧ b = b' ∧ c = c' := by
  obtain ⟨rfl, hrest⟩ := List.append_inj h ha
  obtain ⟨rfl, hlast⟩ := List.append_inj (List.cons.inj hrest).2 hb
  exact ⟨rfl, rfl, (List.cons.inj hlast).2⟩

theorem getElem?_join3_first : (join3 sep a b c)[a.length]? = some sep := by
  rw [join3, List.getElem?_append_right le_rfl, Nat.sub_self, List.getElem?_cons_zero]

theorem getElem?_join3_second : (join3 sep a b c)[a.length + 1 + b.length]? = some sep := by
  rw [join3, List.getElem?_append_right (by omega), show a.length + 1 + b.length - a.length =
    b.length + 1 by omega, List.getElem?_cons_succ, List.getElem?_append_right le_rfl, Nat.sub_self,
    List.getElem?_cons_zero]

theorem take_join3 : (join3 sep a b c).take a.length = a := List.take_left

theorem mid_join3 : ((join3 sep a b c).drop (a.length + 1)).take
    (a.length + 1 + b.length - a.length - 1) = b := by
  rw [join3, ← List.drop_drop, List.drop_left, List.drop_one, List.tail_cons,
    show a.length + 1 + b.length - a.length - 1 = b.length by omega, List.take_left]

theorem last_join3 : (join3 sep a b c).drop (a.length + 1 + b.length + 1) = c := by
  rw [join3, show a.length + 1 + b.length + 1 = a.length + (1 + (b.length + 1)) by omega,
    ← List.drop_drop, List.drop_left, ← List.drop_drop, List.drop_one, List.tail_cons,
    ← List.drop_drop, List.drop_left, List.drop_one, List.tail_cons]

/-- Two separators cut a list in three. -/
theorem join3_cut {s : List α} {i j : ℕ} (hij : i < j) (hi : s[i]? = some sep)
    (hj : s[j]? = some sep) :
    join3 sep (s.take i) ((s.drop (i + 1)).take (j - i - 1)) (s.drop (j + 1)) = s := by
  have hhead : ∀ (t : List α) (n : ℕ), t[n]? = some sep → sep :: t.drop (n + 1) = t.drop n := by
    intro t n hn
    obtain ⟨hlt, heq⟩ := List.getElem?_eq_some_iff.mp hn
    rw [List.drop_eq_getElem_cons hlt, heq]
  have hmid : (s.drop (i + 1))[j - i - 1]? = some sep := by
    rw [List.getElem?_drop, show i + 1 + (j - i - 1) = j by omega, hj]
  have hrest : s.drop (j + 1) = (s.drop (i + 1)).drop (j - i - 1 + 1) := by
    rw [List.drop_drop]
    congr 1
    omega
  rw [join3, hrest, hhead _ _ hmid, List.take_append_drop, hhead _ _ hi, List.take_append_drop]

variable [DecidableEq α]

private theorem count_join3 :
    (join3 sep a b c).count sep = a.count sep + b.count sep + c.count sep + 2 := by
  simp [join3, List.count_append]
  omega

/-- Only one of the two triples has to be free of the separator: the other then is, too. -/
theorem join3_inj (ha : sep ∉ a) (hb : sep ∉ b) (hc : sep ∉ c)
    (h : join3 sep a' b' c' = join3 sep a b c) : a' = a ∧ b' = b ∧ c' = c := by
  have hcount : a'.count sep + b'.count sep + c'.count sep = 0 := by
    have hn := congrArg (List.count sep) h
    rw [count_join3, count_join3, List.count_eq_zero.mpr ha, List.count_eq_zero.mpr hb,
      List.count_eq_zero.mpr hc] at hn
    omega
  have ha' : sep ∉ a' := List.count_eq_zero.mp (by omega)
  have hb' : sep ∉ b' := List.count_eq_zero.mp (by omega)
  obtain ⟨rfl, hrest⟩ := cut_inj ha' ha h
  obtain ⟨rfl, rfl⟩ := cut_inj hb' hb hrest
  exact ⟨rfl, rfl, rfl⟩

/-- Parts that are not empty and do not hold the separator are determined by their join. -/
theorem intercalate_inj {parts parts' : List (List α)}
    (h : ∀ p ∈ parts, p ≠ [] ∧ sep ∉ p) (h' : ∀ p ∈ parts', p ≠ [] ∧ sep ∉ p)
    (heq : [sep].intercalate parts = [sep].intercalate parts') : parts = parts' := by
  have hnil : ∀ {ps : List (List α)}, (∀ p ∈ ps, p ≠ [] ∧ sep ∉ p) →
      [sep].intercalate ps = [] → ps = [] := by
    intro ps hps hempty
    by_contra hne
    have hsplit := List.splitOn_intercalate sep (fun p hp => (hps p hp).2) hne
    rw [hempty] at hsplit
    exact (hps [] (hsplit ▸ List.mem_singleton_self [])).1 rfl
  by_cases hparts : parts = []
  · subst hparts
    exact (hnil h' heq.symm).symm
  · have hparts' : parts' ≠ [] := by
      rintro rfl
      exact hparts (hnil h heq)
    rw [← List.splitOn_intercalate sep (fun p hp => (h p hp).2) hparts, heq,
      List.splitOn_intercalate sep (fun p hp => (h' p hp).2) hparts']

omit [DecidableEq α] in
theorem mem_intercalate {x : α} {parts : List (List α)} (h : x ∈ [sep].intercalate parts) :
    x = sep ∨ ∃ p ∈ parts, x ∈ p := by
  induction parts with
  | nil => exact absurd h List.not_mem_nil
  | cons p parts ih =>
    by_cases hparts : parts = []
    · subst hparts
      rw [List.intercalate_singleton] at h
      exact .inr ⟨p, List.mem_cons_self, h⟩
    · rw [List.intercalate_cons_of_ne_nil hparts, List.mem_append, List.mem_append,
        List.mem_singleton] at h
      rcases h with (h | h) | h
      · exact .inr ⟨p, List.mem_cons_self, h⟩
      · exact .inl h
      · rcases ih h with h | ⟨q, hq, h⟩
        · exact .inl h
        · exact .inr ⟨q, List.mem_cons_of_mem p hq, h⟩

end ZTG
