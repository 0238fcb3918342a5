import ZtGateway.Lib.Statistics
import ZtGateway.Proofs.Telemetry

/-! The row of a triple after calls of `recordAllowOutcome` one after another: what the reads,
the running update and the upserts leave is what the list of timestamps says. -/

namespace ZTG

namespace Telemetry

open Statistics

variable {ι : Type} [DecidableEq ι] {args : ι → Args} {row : SignalRow} {ts : List ℤ}

/-- the UTC hour of a time in milliseconds -/
def hourOf (t : ℤ) : ℕ := (t / 3600000 % 24).toNat

/-- calls per minute, from the time between two calls -/
def rate (t t' : ℤ) : ℚ := 60000 / (max 1 (t' - t) : ℤ)

/-- one rate for each call; there is none before the first -/
def rates : List ℤ → List ℚ
  | [] => []
  | t :: ts => 0 :: List.zipWith rate (t :: ts) ts

/-- The row of a triple with calls at the times `ts`. -/
structure Exact (row : SignalRow) (ts : List ℤ) : Prop where
  counts : row.Counts ts.length
  histogram : row.hourHistogram = (List.range 24).map fun h => ts.countP fun t => hourOf t = h
  firstSeenAt : ts.head? = some row.firstSeenAt
  lastSeenAt : ts.getLast? = some row.lastSeenAt
  rateEma : row.rateEma = mean (rates ts)
  rateEmaVar : row.rateEmaVar = sampleVariance (rates ts)
  nonneg : 0 ≤ row.rateEmaVar

theorem length_rates (ts : List ℤ) : (rates ts).length = ts.length := by
  cases ts with
  | nil => rfl
  | cons t ts => simp [rates]

theorem rates_snoc {last : ℤ} (h : ts.getLast? = some last) (t : ℤ) :
    rates (ts ++ [t]) = rates ts ++ [rate last t] := by
  have hzip : ∀ (ts : List ℤ) (t₀ : ℤ), (t₀ :: ts).getLast? = some last →
      List.zipWith rate (t₀ :: (ts ++ [t])) (ts ++ [t]) =
        List.zipWith rate (t₀ :: ts) ts ++ [rate last t] := by
    intro ts
    induction ts with
    | nil =>
      intro t₀ hlast
      obtain rfl : t₀ = last := by simpa using hlast
      rfl
    | cons t₁ ts ih =>
      intro t₀ hlast
      rw [List.getLast?_cons_cons] at hlast
      rw [List.cons_append, List.zipWith_cons_cons, ih t₁ hlast]
      rfl
  cases ts with
  | nil => simp at h
  | cons t₀ ts => exact congrArg (0 :: ·) (hzip ts t₀ h)

/-- One more call in its hour. -/
theorem bump_histogram (ts : List ℤ) (t : ℤ) :
    bump ((List.range 24).map fun h => ts.countP fun t => hourOf t = h) (hourOf t) =
      (List.range 24).map fun h => (ts ++ [t]).countP fun t => hourOf t = h := by
  unfold bump
  rw [List.length_map, List.length_range, Nat.sub_self, List.replicate_zero, List.append_nil]
  refine List.ext_getElem (by simp) fun n hn hn' => ?_
  rw [List.getElem_modify]
  simp only [List.getElem_map, List.getElem_range, List.countP_append, List.countP_singleton,
    decide_eq_true_eq]
  split_ifs <;> rfl

theorem exact_first (fl : ℚ → ℚ) (a : Args) : Exact (computed fl a none) [a.ts] where
  counts := computed_counts a rfl
  histogram := by
    have hset : ∀ hr < 24, (List.replicate 24 0).set hr 1 =
        (List.range 24).map fun h => if hr = h then 1 else 0 := by decide
    refine (hset a.hr a.hr_lt).trans (List.map_congr_left fun h _ => ?_)
    rw [List.countP_singleton]
    exact if_congr decide_eq_true_iff.symm rfl rfl
  firstSeenAt := rfl
  lastSeenAt := rfl
  rateEma := by simp [computed, rates, mean]
  rateEmaVar := by simp [computed, rates, sampleVariance]
  nonneg := le_rfl

theorem Exact.next (h : Exact row ts) (a : Args) :
    Exact (doUpdate row (computed id a (some row))) (ts ++ [a.ts]) := by
  have hne : ts ≠ [] := by
    rintro rfl
    cases h.lastSeenAt
  have hlength : (rates ts).length = ts.length := length_rates ts
  have hrates : rates (ts ++ [a.ts]) = rates ts ++ [rate row.lastSeenAt a.ts] :=
    rates_snoc h.lastSeenAt a.ts
  have hratesNe : rates ts ≠ [] := by
    rw [← List.length_pos_iff, hlength]
    exact List.length_pos_iff.mpr hne
  have hobs : row.anomalyObservations = ts.length := h.counts.2.1
  have hmean : (computed id a (some row)).rateEma = mean (rates (ts ++ [a.ts])) := by
    rw [hrates, mean_snoc, hlength, ← h.rateEma, ← hobs]
    simp only [computed, id, rate]
    push_cast
    rfl
  have hvariance : (computed id a (some row)).rateEmaVar =
      sampleVariance (rates (ts ++ [a.ts])) := by
    have hmean' := hmean
    rw [hrates] at hmean' ⊢
    rw [sampleVariance_snoc hratesNe, ← hmean', hlength, ← h.rateEma, ← h.rateEmaVar, ← hobs]
    have hpos : row.anomalyObservations + 1 ≠ 1 := by
      rw [hobs]
      simpa using hne
    simp only [computed, id, rate, if_neg hpos]
    push_cast
    ring_nf
  refine ⟨?_, ?_, ?_, ?_, hmean, hvariance, ?_⟩
  · rw [List.length_append]
    exact computed_counts a h.counts
  · have hbump := bump_histogram ts a.ts
    rw [← h.histogram] at hbump
    exact hbump
  · rw [List.head?_append, h.firstSeenAt]
    exact congrArg some (min_self row.firstSeenAt).symm
  · rw [List.getLast?_append]
    rfl
  · exact hvariance ▸ sampleVariance_nonneg _

/-- what is stored for the triple after calls at `ts` -/
def Stored (found : Option SignalRow) (ts : List ℤ) : Prop :=
  match found with
  | none => ts = []
  | some row => Exact row ts

/-- the statements of a call that runs through; the answer to COMMIT may be lost -/
def call (acked : ι → Bool) (i : ι) : List (ι × Statement) :=
  [(i, .begin_), (i, .insertActivity), (i, .select), (i, .upsert), (i, .commit (acked i))]

/-- A call that finds the row unlocked. -/
theorem stored_call {p : Pool ι Phase (Db ι)} {i : ι} (acked : ι → Bool)
    (hidle : p.locals i = .idle) (hfree : p.shared.holder (args i).key = none)
    (h : Stored (p.shared.signals (args i).key) ts) :
    let p' := runSteps (step id args) p (call acked i)
    Stored (p'.shared.signals (args i).key) (ts ++ [(args i).ts]) ∧
      p'.shared.holder (args i).key = none ∧ ∀ j, j ≠ i → p'.locals j = p.locals j := by
  have hopen : p.shared.free (args i).key i = true := by simp [Db.free, hfree]
  cases hrow : p.shared.signals (args i).key with
  | none =>
    rw [hrow] at h
    obtain rfl : ts = [] := h
    simp only [call, runSteps_cons, runSteps_nil, step, Pool.step, act, select, upsert, hidle, hrow,
      hopen, Function.update_self, ↓reduceIte]
    refine ⟨?_, ?_, ?_⟩
    · simpa [Stored, commit] using exact_first id (args i)
    · simp [commit, Db.release, Db.hold]
    · intro j hj
      simp [Function.update_of_ne hj]
  | some row =>
    rw [hrow] at h
    -- the upsert meets the lock that the SELECT took
    have hheld : (p.shared.hold (args i).key i).free (args i).key i = true := by
      simp [Db.free, Db.hold]
    have hrow' : (p.shared.hold (args i).key i).signals (args i).key = some row := hrow
    simp only [call, runSteps_cons, runSteps_nil, step, Pool.step, act, select, upsert, hidle, hrow,
      hopen, hheld, hrow', Function.update_self, ↓reduceIte]
    refine ⟨?_, ?_, ?_⟩
    · simpa [Stored, commit] using h.next (args i)
    · simp [commit, Db.release, Db.hold]
    · intro j hj
      simp [Function.update_of_ne hj]

/-- From any state in which the calls have not begun and the row is unlocked. -/
theorem stored_of_calls (acked : ι → Bool) {key : Triple} {calls : List ι} (hnodup : calls.Nodup)
    (hkey : ∀ i ∈ calls, (args i).key = key) {p : Pool ι Phase (Db ι)}
    (hidle : ∀ i ∈ calls, p.locals i = .idle) (hfree : p.shared.holder key = none)
    (h : Stored (p.shared.signals key) ts) :
    Stored ((runSteps (step id args) p (calls.flatMap (call acked))).shared.signals key)
      (ts ++ calls.map fun i => (args i).ts) := by
  induction calls generalizing p ts with
  | nil => simpa using h
  | cons i calls ih =>
    obtain rfl := hkey i List.mem_cons_self
    obtain ⟨hnotMem, hnodup⟩ := List.nodup_cons.mp hnodup
    obtain ⟨hstored, hreleased, hothers⟩ :=
      stored_call acked (hidle i List.mem_cons_self) hfree h
    rw [List.flatMap_cons, runSteps_append, List.map_cons, ← List.singleton_append,
      ← List.append_assoc]
    refine ih hnodup (fun j hj => hkey j (List.mem_cons_of_mem i hj)) (fun j hj => ?_) hreleased
      hstored
    rw [hothers j fun heq => hnotMem (heq ▸ hj)]
    exact hidle j (List.mem_cons_of_mem i hj)

/-- After any calls on a new triple, one after another and at any times, the row holds their
exact statistics. -/
theorem statistics_of_calls (args : ι → Args) (acked : ι → Bool) (key : Triple) (db : Db ι)
    (hnew : db.signals key = none) (hfree : db.holder key = none) (calls : List ι)
    (hne : calls ≠ []) (hnodup : calls.Nodup) (hkey : ∀ i ∈ calls, (args i).key = key) :
    ∃ row, (runSteps (step id args) (start db) (calls.flatMap (call acked))).shared.signals key =
        some row ∧ Exact row (calls.map fun i => (args i).ts) := by
  have hstart : Stored ((start db).shared.signals key) [] := by
    show Stored (db.signals key) []
    rw [hnew]
    rfl
  have hstored := stored_of_calls acked hnodup hkey (p := start db) (fun _ _ => rfl) hfree hstart
  rw [List.nil_append] at hstored
  cases hrow : (runSteps (step id args) (start db) (calls.flatMap (call acked))).shared.signals
      key with
  | none =>
    rw [hrow] at hstored
    exact absurd (List.map_eq_nil_iff.mp hstored) hne
  | some row =>
    rw [hrow] at hstored
    exact ⟨row, rfl, hstored⟩

/-- the second of three calls is stamped before the first -/
def lateArgs : Fin 3 → Args := fun i =>
  ⟨⟨"alice", "phone", "10.0.0.1", "ge11"⟩, .num 0,
    if i = 0 then 5000 else if i = 1 then 2000 else 3000⟩

/-- Rates 0, 60000 and 60: a mean of 20020. -/
theorem statistics_of_calls_late :
    ∃ row, (runSteps (step id lateArgs) (start {}) ([0, 1, 2].flatMap
        (call fun _ => true))).shared.signals (lateArgs 0).key = some row ∧
      Exact row [5000, 2000, 3000] ∧ row.rateEma = 20020 := by
  obtain ⟨row, hrow, h⟩ := statistics_of_calls lateArgs (fun _ => true) (lateArgs 0).key {} rfl rfl
    [0, 1, 2] (by simp) (by decide) (by decide)
  refine ⟨row, hrow, h, h.rateEma.trans ?_⟩
  decide +kernel

end Telemetry

end ZTG
