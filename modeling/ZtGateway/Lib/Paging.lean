import Mathlib.Data.List.Sort
import Mathlib.Tactic

/-! Pages of a list that is sorted by a key, latest first, when rows with equal keys may come in
any order and the order is chosen anew for each page. -/

namespace ZTG

variable {α κ : Type} [LinearOrder κ] {key : α → κ} {rows s s' : List α}

/-- the rows in an order that the key allows -/
structure Arranged (key : α → κ) (rows s : List α) : Prop where
  perm : s.Perm rows
  sorted : s.Pairwise fun a b => key b ≤ key a

def pageOf (limit k : ℕ) (s : List α) : List α := (s.drop (k * limit)).take limit

/-- the rows with a later key -/
def newer (key : α → κ) (rows : List α) (r : α) : ℕ := rows.countP fun x => decide (key r < key x)

/-- the rows with the same key, `r` among them -/
def tied (key : α → κ) (rows : List α) (r : α) : ℕ := rows.countP fun x => decide (key x = key r)

/-- A sorted list starts with the rows above a bound. -/
theorem sorted_split (hs : s.Pairwise fun a b => key b ≤ key a) {p : κ → Bool}
    (hp : ∀ x y, x ≤ y → p x = true → p y = true) :
    s = (s.filter fun x => p (key x)) ++ s.filter fun x => !p (key x) := by
  induction s with
  | nil => rfl
  | cons a s ih =>
    rw [List.pairwise_cons] at hs
    cases ha : p (key a) with
    | true =>
      rw [List.filter_cons, if_pos ha, List.filter_cons, if_neg (by simp [ha]), List.cons_append,
        ← ih hs.2]
    | false =>
      have hall : ∀ x ∈ s, p (key x) = false := fun x hx => by
        rw [← Bool.not_eq_true]
        intro h
        exact Bool.noConfusion ((hp _ _ (hs.1 x hx) h).symm.trans ha)
      rw [List.filter_cons, if_neg (by simp [ha]), List.filter_cons, if_pos (by simp [ha]),
        List.filter_eq_nil_iff.mpr fun x hx => by simp [hall x hx], List.nil_append,
        List.filter_eq_self.mpr fun x hx => by simp [hall x hx]]

theorem Arranged.take_above (h : Arranged key rows s) {p : κ → Bool}
    (hp : ∀ x y, x ≤ y → p x = true → p y = true) :
    (s.take (rows.countP fun x => p (key x))).Perm (rows.filter fun x => p (key x)) := by
  have hlen : (s.filter fun x => p (key x)).length = rows.countP fun x => p (key x) := by
    rw [← List.countP_eq_length_filter, h.perm.countP_eq]
  have hsplit := sorted_split h.sorted hp
  have htake : s.take (rows.countP fun x => p (key x)) = s.filter fun x => p (key x) := by
    calc s.take (rows.countP fun x => p (key x))
        = ((s.filter fun x => p (key x)) ++ s.filter fun x => !p (key x)).take
          (s.filter fun x => p (key x)).length := by rw [hlen, ← hsplit]
      _ = s.filter fun x => p (key x) := List.take_left
  rw [htake]
  exact h.perm.filter _

theorem countP_newer_tied (rows : List α) (r : α) :
    (rows.countP fun x => decide (key r ≤ key x)) = newer key rows r + tied key rows r := by
  unfold newer tied
  induction rows with
  | nil => rfl
  | cons a rows ih =>
    simp only [List.countP_cons, ih, decide_eq_true_eq]
    rcases lt_trichotomy (key r) (key a) with h | h | h
    · rw [if_pos h.le, if_pos h, if_neg h.ne']
      omega
    · rw [if_pos h.le, if_neg h.not_lt, if_pos h.symm]
      omega
    · rw [if_neg h.not_ge, if_neg h.not_gt, if_neg h.ne]
      rfl

/-- Which rows a sorted list has before and after a place, by a bound on the key. -/
theorem Arranged.place_iff (h : Arranged key rows s) {p : κ → Bool}
    (hp : ∀ x y, x ≤ y → p x = true → p y = true) {i : ℕ} {r : α} (hr : s[i]? = some r) :
    i < (rows.countP fun x => p (key x)) ↔ p (key r) = true := by
  have hlen : (s.filter fun x => p (key x)).length = rows.countP fun x => p (key x) := by
    rw [← List.countP_eq_length_filter, h.perm.countP_eq]
  rw [sorted_split h.sorted hp] at hr
  rw [← hlen]
  constructor
  · intro hi
    rw [List.getElem?_append_left hi] at hr
    simpa using (List.mem_filter.mp (List.mem_of_getElem? hr)).2
  · intro hpr
    by_contra hi
    rw [List.getElem?_append_right (not_lt.mp hi)] at hr
    have := (List.mem_filter.mp (List.mem_of_getElem? hr)).2
    simp [hpr] at this

/-- The place of a row in a sorted list: after the newer ones, among its ties. -/
theorem Arranged.place (h : Arranged key rows s) {i : ℕ} {r : α} (hr : s[i]? = some r) :
    newer key rows r ≤ i ∧ i < newer key rows r + tied key rows r := by
  constructor
  · have hiff := h.place_iff (p := fun x => decide (key r < x))
      (fun x y hxy hx => decide_eq_true (lt_of_lt_of_le (of_decide_eq_true hx) hxy)) hr
    exact not_lt.mp fun hi => lt_irrefl _ (of_decide_eq_true (hiff.mp hi))
  · rw [← countP_newer_tied]
    refine (h.place_iff (p := fun x => decide (key r ≤ x))
      (fun x y hxy hx => decide_eq_true (le_trans (of_decide_eq_true hx) hxy)) hr).mpr ?_
    exact decide_eq_true le_rfl

/-- No group of equal keys has places on both sides of a page boundary. -/
def BoundariesClear (key : α → κ) (rows : List α) (limit : ℕ) : Prop :=
  ∀ r ∈ rows, ∀ k, ¬ (newer key rows r < k * limit ∧
    k * limit < newer key rows r + tied key rows r)

/-- Then any two orders have the same rows before a boundary. -/
theorem Arranged.take_boundary (h : Arranged key rows s) (h' : Arranged key rows s') {limit : ℕ}
    (hclear : BoundariesClear key rows limit) (k : ℕ) :
    (s.take (k * limit)).Perm (s'.take (k * limit)) := by
  by_cases hend : s.length ≤ k * limit
  · have hend' : s'.length ≤ k * limit := by
      rwa [h'.perm.length_eq, ← h.perm.length_eq]
    rw [List.take_of_length_le hend, List.take_of_length_le hend']
    exact h.perm.trans h'.perm.symm
  · -- the row behind the boundary is the first of its group, so the rows before are the newer ones
    have hlt : k * limit < s.length := not_le.mp hend
    obtain ⟨r, hr⟩ : ∃ r, s[k * limit]? = some r := ⟨_, List.getElem?_eq_getElem hlt⟩
    obtain ⟨hle, hlt'⟩ := h.place hr
    have hmem : r ∈ rows := h.perm.mem_iff.mp (List.mem_of_getElem? hr)
    have hcount : newer key rows r = k * limit :=
      le_antisymm hle (not_lt.mp fun hgt => hclear r hmem k ⟨hgt, hlt'⟩)
    have hmono : ∀ x y : κ, x ≤ y → decide (key r < x) = true → decide (key r < y) = true :=
      fun x y hxy hx => decide_eq_true (lt_of_lt_of_le (of_decide_eq_true hx) hxy)
    have htake := h.take_above hmono
    have htake' := h'.take_above hmono
    unfold newer at hcount
    rw [hcount] at htake htake'
    exact htake.trans htake'.symm

/-- the pages of successive queries, each from an order of its own -/
def pagesOf (limit n : ℕ) (orders : ℕ → List α) : List α :=
  (List.range n).flatMap fun k => pageOf limit k (orders k)

theorem take_succ_page (limit k : ℕ) (s : List α) :
    s.take ((k + 1) * limit) = s.take (k * limit) ++ pageOf limit k s := by
  rw [Nat.succ_mul, List.take_add, pageOf]

theorem pagesOf_perm {limit : ℕ} (hclear : BoundariesClear key rows limit)
    {orders : ℕ → List α} (horders : ∀ k, Arranged key rows (orders k)) (n : ℕ)
    (h : Arranged key rows s) : (pagesOf limit n orders).Perm (s.take (n * limit)) := by
  induction n generalizing s with
  | zero => simp [pagesOf]
  | succ n ih =>
    have hpages : pagesOf limit (n + 1) orders =
        pagesOf limit n orders ++ pageOf limit n (orders n) := by
      simp [pagesOf, List.range_succ]
    have hbefore := (ih (horders n)).append_right (pageOf limit n (orders n))
    rw [← take_succ_page] at hbefore
    rw [hpages]
    exact hbefore.trans ((horders n).take_boundary h hclear (n + 1))

theorem mem_pageOf {limit i : ℕ} (hlimit : 1 ≤ limit) {x : α} (hx : s[i]? = some x) :
    x ∈ pageOf limit (i / limit) s := by
  have hplace : (pageOf limit (i / limit) s)[i % limit]? = some x := by
    rw [pageOf, List.getElem?_take_of_lt (Nat.mod_lt i hlimit), List.getElem?_drop,
      Nat.mul_comm, Nat.div_add_mod]
    exact hx
  exact List.mem_of_getElem? hplace

theorem arranged_mergeSort (key : α → κ) (rows : List α) :
    Arranged key rows (rows.mergeSort fun a b => decide (key b ≤ key a)) where
  perm := List.mergeSort_perm rows _
  sorted := by
    have hsorted := @List.pairwise_mergeSort α (fun a b => decide (key b ≤ key a))
      (fun a b c hab hbc => decide_eq_true (le_trans (of_decide_eq_true hbc) (of_decide_eq_true hab)))
      (fun a b => by simpa using le_total (key b) (key a)) rows
    exact hsorted.imp fun h => of_decide_eq_true h

/-- Keys decide whether a list is sorted. -/
theorem Arranged.of_keys (h : Arranged key rows s) (hperm : s'.Perm s)
    (hkeys : s'.map key = s.map key) : Arranged key rows s' where
  perm := hperm.trans h.perm
  sorted := by
    have hsorted := h.sorted
    rw [← List.pairwise_map (R := fun a b : κ => b ≤ a)] at hsorted ⊢
    rwa [hkeys]

/-- A sorted list around a group of equal keys. -/
theorem Arranged.around (h : Arranged key rows s) (r : α) :
    ∃ above group below, s = above ++ group ++ below ∧ above.length = newer key rows r ∧
      group.length = tied key rows r ∧ ∀ x ∈ group, key x = key r := by
  have hsplit := sorted_split h.sorted (p := fun x => decide (key r < x))
    fun x y hxy hx => decide_eq_true (lt_of_lt_of_le (of_decide_eq_true hx) hxy)
  generalize hbelow : (s.filter fun x => !decide (key r < key x)) = rest at hsplit
  have hsorted : rest.Pairwise fun a b => key b ≤ key a := hbelow ▸ h.sorted.filter _
  have hsplit' := sorted_split hsorted (p := fun x => decide (key r ≤ x))
    fun x y hxy hx => decide_eq_true (le_trans (of_decide_eq_true hx) hxy)
  refine ⟨s.filter fun x => decide (key r < key x), rest.filter fun x => decide (key r ≤ key x),
    rest.filter fun x => !decide (key r ≤ key x), ?_, ?_, ?_, ?_⟩
  · rw [List.append_assoc, ← hsplit', ← hsplit]
  · rw [← List.countP_eq_length_filter, h.perm.countP_eq]
    rfl
  · rw [← List.countP_eq_length_filter, ← hbelow, List.countP_filter, h.perm.countP_eq]
    refine List.countP_congr fun x _ => ?_
    simp only [Bool.and_eq_true, Bool.not_eq_true', decide_eq_true_eq, decide_eq_false_iff_not,
      not_lt]
    exact ⟨fun hx => le_antisymm hx.2 hx.1, fun hx => ⟨hx.ge, hx.le⟩⟩
  · intro x hx
    obtain ⟨hmem, hle⟩ := List.mem_filter.mp hx
    rw [← hbelow] at hmem
    have hnot := (List.mem_filter.mp hmem).2
    simp only [Bool.not_eq_true', decide_eq_false_iff_not, not_lt, decide_eq_true_eq] at hnot hle
    exact le_antisymm hnot hle

/-- The first of a group of equal keys can be its last as well. -/
theorem exists_rotated (key : α → κ) (rows : List α) {r : α} (hr : r ∈ rows) :
    ∃ x s s', Arranged key rows s ∧ Arranged key rows s' ∧ s[newer key rows r]? = some x ∧
      s'[newer key rows r + tied key rows r - 1]? = some x := by
  have h := arranged_mergeSort key rows
  obtain ⟨above, group, below, hs, habove, hgroup, hkeys⟩ := h.around r
  generalize (rows.mergeSort fun a b => decide (key b ≤ key a)) = s at h hs
  subst hs
  have hpos : 0 < tied key rows r := List.countP_pos_iff.mpr ⟨r, hr, decide_eq_true rfl⟩
  obtain ⟨x, group, rfl⟩ : ∃ x g, group = x :: g :=
    List.exists_cons_of_ne_nil (List.ne_nil_of_length_pos (hgroup ▸ hpos))
  refine ⟨x, above ++ (x :: group) ++ below, above ++ (group ++ [x]) ++ below, h, ?_, ?_, ?_⟩
  · refine h.of_keys (((List.perm_append_singleton x group).append_left above).append_right below) ?_
    have hsame : (group ++ [x]).map key = (x :: group).map key := by
      have hall : ∀ l : List α, (∀ y ∈ l, key y = key r) →
          l.map key = List.replicate l.length (key r) := fun l hl =>
        List.eq_replicate_iff.mpr ⟨List.length_map _, by simpa using hl⟩
      rw [hall (x :: group) hkeys, hall (group ++ [x])]
      · simp
      · intro y hy
        exact hkeys y ((List.perm_append_singleton x group).mem_iff.mp hy)
    rw [List.map_append, List.map_append, hsame, ← List.map_append, ← List.map_append]
  · rw [List.append_assoc, ← habove, List.getElem?_append_right le_rfl, Nat.sub_self]
    rfl
  · have hlast : newer key rows r + tied key rows r - 1 = above.length + group.length := by
      rw [← habove, ← hgroup, List.length_cons]
      omega
    rw [hlast, List.append_assoc, List.getElem?_append_right (Nat.le_add_right _ _),
      Nat.add_sub_cancel_left, List.append_assoc, List.getElem?_append_right le_rfl, Nat.sub_self]
    rfl

/-- The pages together are the rows, whatever the orders, exactly if no group of equal keys lies
across a page boundary. -/
theorem pages_partition {limit : ℕ} (hlimit : 1 ≤ limit) (hrows : rows.Nodup) :
    (∀ orders : ℕ → List α, (∀ k, Arranged key rows (orders k)) → ∀ n, rows.length ≤ n * limit →
      (pagesOf limit n orders).Perm rows) ↔ BoundariesClear key rows limit := by
  constructor
  · intro hall r hr k ⟨hbefore, hafter⟩
    obtain ⟨x, s, s', hs, hs', hx, hx'⟩ := exists_rotated key rows hr
    -- the pages before the boundary see the row first, those behind it see it last
    have horders : ∀ j, Arranged key rows (if j < k then s else s') := by
      intro j
      split_ifs
      · exact hs
      · exact hs'
    generalize hi : newer key rows r = i at hx hx' hbefore hafter
    generalize hj : i + tied key rows r - 1 = j at hx'
    have hfirst : i / limit < k := Nat.div_lt_of_lt_mul (by rwa [Nat.mul_comm])
    have hlast : k ≤ j / limit := (Nat.le_div_iff_mul_le hlimit).mpr (by omega)
    have hperm := hall _ horders (rows.length + j / limit + 1) (by nlinarith)
    have hnodup := hperm.nodup_iff.mpr hrows
    rw [pagesOf, List.nodup_flatMap] at hnodup
    have hdisjoint := List.pairwise_iff_getElem.mp hnodup.2 (i / limit) (j / limit)
      (by rw [List.length_range]; omega) (by rw [List.length_range]; omega) (by omega)
    rw [Function.onFun, List.getElem_range, List.getElem_range, if_pos hfirst,
      if_neg (not_lt.mpr hlast)] at hdisjoint
    exact hdisjoint (mem_pageOf hlimit hx) (mem_pageOf hlimit hx')
  · intro hclear orders horders n hn
    have h := arranged_mergeSort key rows
    have hpages := pagesOf_perm hclear horders n h
    rw [List.take_of_length_le (by rwa [h.perm.length_eq])] at hpages
    exact hpages.trans h.perm

end ZTG
