import ZtGateway.Proofs.Upstream

/-! The contract of the retry loop: which attempts it makes, how long it waits between them and
what it ends with, for every sequence of outcomes. -/

namespace ZTG

open Act

namespace Retry

/-- a world in which the attempts get these outcomes, one after the other -/
def answering (o : ℕ → AxiosOutcome) (env : Env ProxyCall ProxyReply) :
    Env ProxyCall ProxyReply := fun tr op =>
  match op with
  | .axios _ => o (outcomes tr).length
  | op => env tr op

def Event.waited : Event ProxyCall ProxyReply → Option ℕ
  | ⟨.sleep ms, _⟩ => some ms
  | _ => none

/-- the waits of a run, in order -/
def sleeps (tr : Trace ProxyCall ProxyReply) : List ℕ := tr.filterMap Event.waited

/-- 100, 200, 400, 400, … -/
def delay : ℕ → ℕ
  | 0 => 100
  | 1 => 200
  | _ => 400

theorem backoff_eq (attempt : ℕ) : backoff attempt = delay attempt := by
  match attempt with
  | 0 | 1 => rfl
  | n + 2 =>
    have hmin : min (n + 2) (BACKOFF_DELAYS_MS.length - 1) = 2 :=
      Nat.min_eq_right (Nat.le_add_left 2 n)
    rw [backoff, hmin]
    rfl

variable {env : Env ProxyCall ProxyReply} {tr : Trace ProxyCall ProxyReply} {maxRetries : ℕ}
  {config : AxiosRequestConfig} {attempt : ℕ}

/-- A retriable outcome before the last attempt: the pass waits and continues. -/
theorem exec_pass_continue (hretry : AxiosOutcome.retriable (env tr (.axios config)) = true)
    (hleft : attempt < maxRetries) :
    ∃ lastErr, exec env (pass maxRetries config attempt) () tr =
      ((.ok (.continue_ lastErr), ()), tr ++ [⟨.axios config, env tr (.axios config)⟩] ++
        [⟨.sleep (backoff attempt), ()⟩]) := by
  unfold pass
  simp only [exec_tryCatch, exec_bind, exec_call, id_eq]
  generalize htr₁ : tr ++ [⟨.axios config, env tr (.axios config)⟩] = tr₁
  generalize (env tr (.axios config) : AxiosOutcome) = o at hretry ⊢
  cases o with
  | ok response =>
    have hstatus : RETRIABLE_STATUSES.contains response.status = true := hretry
    refine ⟨.error ("Upstream " ++ toString response.status) none, ?_⟩
    simp only [hstatus, if_true, hleft]
    rfl
  | error err =>
    have hcode : err.retriable = true := hretry
    refine ⟨err, ?_⟩
    simp only [hcode, hleft, decide_true, Bool.and_true, if_true]
    rfl

/-- Any other outcome settles the run: the `catch` throws again what it caught. -/
theorem exec_pass_last
    (hlast : AxiosOutcome.retriable (env tr (.axios config)) = false ∨ ¬ attempt < maxRetries) :
    exec env (pass maxRetries config attempt) () tr =
      ((Pass.return_ <$> AxiosOutcome.verdict maxRetries (env tr (.axios config)), ()),
        tr ++ [⟨.axios config, env tr (.axios config)⟩]) := by
  unfold pass
  simp only [exec_tryCatch, exec_bind, exec_call, id_eq]
  generalize htr₁ : tr ++ [⟨.axios config, env tr (.axios config)⟩] = tr₁
  generalize (env tr (.axios config) : AxiosOutcome) = o at hlast ⊢
  cases o with
  | ok response =>
    by_cases hstatus : RETRIABLE_STATUSES.contains response.status = true
    · have hleft : ¬ attempt < maxRetries :=
        hlast.resolve_left fun h => Bool.noConfusion (hstatus.symm.trans h)
      simp only [AxiosOutcome.verdict, hstatus, if_true, hleft, if_false, exec_throw]
      rfl
    · simp only [AxiosOutcome.verdict, hstatus]
      rfl
  | error err =>
    have hcatch : ¬ (err.retriable && decide (attempt < maxRetries)) = true := by
      rcases hlast with h | h
      · simp [show err.retriable = false from h]
      · simp [h]
    simp only [hcatch]
    rfl

/-- what the attempts from `a` on add to the trace when they are all retried -/
def rounds (config : AxiosRequestConfig) (o : ℕ → AxiosOutcome) (a n : ℕ) :
    Trace ProxyCall ProxyReply :=
  (List.range' a n).flatMap fun i => [⟨.axios config, o i⟩, ⟨.sleep (delay i), ()⟩]

theorem rounds_succ (o : ℕ → AxiosOutcome) (a n : ℕ) :
    rounds config o a (n + 1) =
      [⟨.axios config, o a⟩, ⟨.sleep (delay a), ()⟩] ++ rounds config o (a + 1) n := by
  rw [rounds, List.range'_succ, List.flatMap_cons]
  rfl

theorem outcomes_rounds (o : ℕ → AxiosOutcome) (a n : ℕ) :
    outcomes (rounds config o a n) = (List.range' a n).map o := by
  induction n generalizing a with
  | zero => rfl
  | succ n ih =>
    rw [rounds_succ, outcomes_append, ih, List.range'_succ, List.map_cons]
    rfl

theorem sleeps_rounds (o : ℕ → AxiosOutcome) (a n : ℕ) :
    sleeps (rounds config o a n) = (List.range' a n).map delay := by
  induction n generalizing a with
  | zero => rfl
  | succ n ih =>
    rw [rounds_succ, sleeps, List.filterMap_append, List.range'_succ, List.map_cons]
    exact congrArg (delay a :: ·) (ih (a + 1))

theorem attempts_cons {a : ℕ} (h : a ≤ maxRetries) :
    List.range' a (maxRetries + 1 - a) =
      a :: List.range' (a + 1) (maxRetries + 1 - (a + 1)) := by
  rw [show maxRetries + 1 - a = maxRetries + 1 - (a + 1) + 1 by omega, List.range'_succ]

/-- The loop from attempt `a` on: `n` outcomes to retry, then one that settles the run. -/
theorem exec_loop (o : ℕ → AxiosOutcome) (n : ℕ) {a : ℕ} (htr : (outcomes tr).length = a)
    (hle : a + n ≤ maxRetries) (hretry : ∀ i, a ≤ i → i < a + n → (o i).retriable = true)
    (hlast : (o (a + n)).retriable = false ∨ a + n = maxRetries) (lastErr : Option ProxyErr) :
    exec (answering o env) (loop maxRetries config (List.range' a (maxRetries + 1 - a)) lastErr)
        () tr =
      ((LoopEnd.return_ <$> AxiosOutcome.verdict maxRetries (o (a + n)), ()),
        tr ++ (rounds config o a n ++ [⟨.axios config, o (a + n)⟩])) := by
  induction n generalizing a tr lastErr with
  | zero =>
    have hanswer : answering o env tr (.axios config) = o a := congrArg o htr
    rw [Nat.add_zero] at hle hlast ⊢
    rw [attempts_cons hle, loop, exec_bind,
      exec_pass_last (by rw [hanswer]; exact hlast.imp id fun h => by omega), hanswer]
    cases o a with
    | error err => rfl
    | ok response =>
      dsimp only [AxiosOutcome.verdict]
      split_ifs
      · rfl
      · rfl
  | succ n ih =>
    have hanswer : answering o env tr (.axios config) = o a := congrArg o htr
    obtain ⟨err, hpass⟩ := @exec_pass_continue (answering o env) tr maxRetries config a
      (by rw [hanswer]; exact hretry a le_rfl (by omega)) (by omega)
    rw [attempts_cons (by omega), loop, exec_bind, hpass, hanswer, backoff_eq]
    have hadd : a + (n + 1) = a + 1 + n := by omega
    have hcount : (outcomes (tr ++ [⟨.axios config, o a⟩] ++
        [⟨.sleep (delay a), ()⟩])).length = a + 1 := by
      simp [outcomes, Event.outcome, ← htr]
    have hrest := ih hcount (by omega) (fun i hi hlt => hretry i (by omega) (by omega))
      (hadd ▸ hlast) (some err)
    rw [hadd, rounds_succ]
    simpa only [List.append_assoc, List.cons_append, List.nil_append] using hrest

/-- From attempt `a` on, the loop of statements runs as the recursion that `forward` calls. -/
theorem exec_loop_eq_retryLoop (left : ℕ) {a : ℕ} (h : a + left = maxRetries)
    (lastErr : Option ProxyErr) (tr : Trace ProxyCall ProxyReply) :
    exec env (loop maxRetries config (List.range' a (maxRetries + 1 - a)) lastErr) () tr =
      ((LoopEnd.return_ <$> (exec env (retryLoop maxRetries config left) () tr).1.1, ()),
        (exec env (retryLoop maxRetries config left) () tr).2) := by
  induction left generalizing a tr lastErr with
  | zero =>
    rw [attempts_cons (by omega), loop, exec_bind, exec_pass_last (Or.inr (by omega))]
    simp only [retryLoop, exec_bind, exec_call]
    generalize htr₁ : tr ++ [⟨.axios config, env tr (.axios config)⟩] = tr₁
    generalize (env tr (.axios config) : AxiosOutcome) = o
    cases o with
    | error err => rfl
    | ok response =>
      dsimp only [AxiosOutcome.verdict]
      split_ifs
      · rfl
      · rfl
  | succ left ih =>
    have hwait : maxRetries - (left + 1) = a := by omega
    rw [attempts_cons (by omega), loop, exec_bind]
    simp only [retryLoop, exec_bind, exec_call, hwait]
    cases hretry : AxiosOutcome.retriable (env tr (.axios config)) with
    | true =>
      obtain ⟨err, hpass⟩ := @exec_pass_continue env tr maxRetries config a hretry (by omega)
      rw [hpass]
      dsimp only
      rw [ih (by omega)]
      generalize htr₁ : tr ++ [⟨.axios config, env tr (.axios config)⟩] = tr₁
      generalize (env tr (.axios config) : AxiosOutcome) = o at hretry
      cases o with
      | error err =>
        have hcode : err.retriable = true := hretry
        simp only [hcode, if_true]
        rfl
      | ok response =>
        have hstatus : RETRIABLE_STATUSES.contains response.status = true := hretry
        simp only [hstatus, if_true]
        rfl
    | false =>
      rw [exec_pass_last (Or.inl hretry)]
      generalize htr₁ : tr ++ [⟨.axios config, env tr (.axios config)⟩] = tr₁
      generalize (env tr (.axios config) : AxiosOutcome) = o at hretry
      cases o with
      | error err =>
        have hcode : err.retriable = false := hretry
        simp only [hcode, AxiosOutcome.verdict]
        rfl
      | ok response =>
        have hstatus : RETRIABLE_STATUSES.contains response.status = false := hretry
        simp only [hstatus, AxiosOutcome.verdict]
        rfl

/-- Both models of `executeWithRetry`, the one that `forward` runs and the one statement by
statement, make the same calls and end alike. -/
theorem exec_eq_executeWithRetry (maxRetries : ℕ) (config : AxiosRequestConfig)
    (tr : Trace ProxyCall ProxyReply) :
    exec env (executeWithRetry maxRetries config) () tr =
      exec env (ZTG.executeWithRetry maxRetries config) () tr := by
  have hloop := @exec_loop_eq_retryLoop env maxRetries config maxRetries 0
    (Nat.zero_add maxRetries) none tr
  rw [Nat.sub_zero, ← List.range_eq_range'] at hloop
  rw [executeWithRetry, exec_bind, hloop, ZTG.executeWithRetry]
  rcases exec env (retryLoop maxRetries config maxRetries) () tr with ⟨⟨_ | response, _⟩, _⟩
  · rfl
  · rfl

/-- The index of the attempt that settles a run: the first outcome that is not retriable, but no
later than `maxRetries`. -/
noncomputable def settling (maxRetries : ℕ) (o : ℕ → AxiosOutcome) : ℕ :=
  sInf ({maxRetries} ∪ {i | (o i).retriable = false})

theorem settling_spec (maxRetries : ℕ) (o : ℕ → AxiosOutcome) :
    settling maxRetries o ≤ maxRetries ∧ (∀ i < settling maxRetries o, (o i).retriable = true) ∧
      ((o (settling maxRetries o)).retriable = false ∨ settling maxRetries o = maxRetries) := by
  have hmem : maxRetries ∈ ({maxRetries} ∪ {i | (o i).retriable = false} : Set ℕ) := Or.inl rfl
  refine ⟨Nat.sInf_le hmem, fun i hi => ?_, (Nat.sInf_mem ⟨_, hmem⟩).symm⟩
  have hnot := Nat.notMem_of_lt_sInf hi
  exact Bool.eq_true_of_not_eq_false fun h => hnot (Or.inr h)

theorem exec_whole_loop (maxRetries : ℕ) (config : AxiosRequestConfig) (o : ℕ → AxiosOutcome)
    (env : Env ProxyCall ProxyReply) :
    exec (answering o env) (loop maxRetries config (List.range (maxRetries + 1)) none) () [] =
      ((LoopEnd.return_ <$> AxiosOutcome.verdict maxRetries (o (settling maxRetries o)), ()),
        rounds config o 0 (settling maxRetries o) ++
          [⟨.axios config, o (settling maxRetries o)⟩]) := by
  obtain ⟨hle, hretry, hlast⟩ := settling_spec maxRetries o
  have hrun := @exec_loop env [] maxRetries config o (settling maxRetries o) 0 rfl
    (by rwa [Nat.zero_add]) (fun i _ hi => hretry i (by rwa [Nat.zero_add] at hi))
    (by rwa [Nat.zero_add]) none
  rwa [Nat.zero_add, Nat.sub_zero, ← List.range_eq_range', List.nil_append] at hrun

theorem exec_executeWithRetry (maxRetries : ℕ) (config : AxiosRequestConfig)
    (o : ℕ → AxiosOutcome) (env : Env ProxyCall ProxyReply) :
    exec (answering o env) (executeWithRetry maxRetries config) () [] =
      ((AxiosOutcome.verdict maxRetries (o (settling maxRetries o)), ()),
        rounds config o 0 (settling maxRetries o) ++
          [⟨.axios config, o (settling maxRetries o)⟩]) := by
  rw [executeWithRetry, exec_bind, exec_whole_loop]
  cases AxiosOutcome.verdict maxRetries (o (settling maxRetries o)) with
  | ok response => rfl
  | error err => rfl

theorem verdict_eq_ok (maxRetries : ℕ) (o : AxiosOutcome) (response : AxiosResponse) :
    o.verdict maxRetries = .ok response ↔ o = .ok response ∧ o.retriable = false := by
  cases o with
  | error err => simp [AxiosOutcome.verdict]
  | ok answer =>
    unfold AxiosOutcome.verdict AxiosOutcome.retriable
    dsimp only
    split_ifs with h
    · simp only [h, Bool.true_eq_false, and_false]
    · simp only [h, and_true]

/-- The contract of `executeWithRetry`. With `k` the index that settles the run: the attempts are
those up to `k`, with a wait after each but the last; the run ends with the outcome `k`, which a
retriable status turns into an error; and the `for` statement never runs out of attempts. -/
theorem executeWithRetry_contract (maxRetries : ℕ) (config : AxiosRequestConfig)
    (o : ℕ → AxiosOutcome) (env : Env ProxyCall ProxyReply) :
    let k := sInf ({maxRetries} ∪ {i | (o i).retriable = false})
    let run := exec (answering o env) (executeWithRetry maxRetries config) () []
    outcomes run.2 = (List.range (k + 1)).map o ∧ sleeps run.2 = (List.range k).map delay ∧
      (∀ response, run.1.1 = .ok response ↔ o k = .ok response ∧ (o k).retriable = false) ∧
      (∀ response, run.1.1 = .ok response → response.status ∉ [502, 503, 504]) ∧
      (∀ err, o k = .error err → run.1.1 = .error err) ∧
      (∀ response, o k = .ok response → (o k).retriable = true →
        run.1.1 = .error (.error ("Upstream " ++ toString response.status ++ " after " ++
          toString maxRetries ++ " retries") none)) ∧
      ∀ lastErr, (exec (answering o env)
        (loop maxRetries config (List.range (maxRetries + 1)) none) () []).1.1 ≠
          .ok (.exhausted lastErr) := by
  intro k run
  have hrun : run = ((AxiosOutcome.verdict maxRetries (o k), ()),
      rounds config o 0 k ++ [⟨.axios config, o k⟩]) := exec_executeWithRetry maxRetries config o env
  have hloop := exec_whole_loop maxRetries config o env
  rw [hrun]
  refine ⟨?_, ?_, ?_, ?_, ?_, ?_, ?_⟩
  · rw [outcomes_append, outcomes_rounds, ← List.range_eq_range', List.range_succ, List.map_append]
    rfl
  · rw [sleeps, List.filterMap_append, ← sleeps, sleeps_rounds, ← List.range_eq_range']
    exact List.append_nil _
  · exact verdict_eq_ok maxRetries (o k)
  · intro response hok hstatus
    obtain ⟨hk, hfalse⟩ := (verdict_eq_ok maxRetries (o k) response).mp hok
    rw [hk] at hfalse
    have htrue : AxiosOutcome.retriable (.ok response) = true := List.contains_iff_mem.mpr hstatus
    exact Bool.noConfusion (htrue.symm.trans hfalse)
  · intro err hk
    rw [hk]
    rfl
  · intro response hk hretry
    rw [hk] at hretry ⊢
    exact if_pos hretry
  · intro lastErr
    rw [hloop]
    change LoopEnd.return_ <$> AxiosOutcome.verdict maxRetries (o k) ≠ _
    cases AxiosOutcome.verdict maxRetries (o k) with
    | ok response => exact fun h => LoopEnd.noConfusion (Except.ok.inj h)
    | error err => exact fun h => by cases h

end Retry

end ZTG
