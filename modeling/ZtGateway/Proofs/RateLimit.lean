import ZtGateway.Spec.RateLimit

/-! The challenge rate limit under concurrency. A row gets the start time of its
transaction, but the lock decides when it is counted: between the INSERT of a call and
its COMMIT no row of the same user is committed, so what the INSERT counted is still
the count when the row appears. -/

namespace ZTG

namespace RateLimit

variable {ι : Type} [DecidableEq ι] {lim : Limits} {args : ι → Args} {i j : ι} {k : Statement}
  {l l' : Phase} {db db' : Db ι}

/-- the rows of one user stamped within the window that ends at `t` -/
def within (rows : List ChallengeRow) (userId : String) (t window : ℕ) : ℕ :=
  rows.countP fun r => r.userId == userId && decide (t < r.createdAt + window) &&
    decide (r.createdAt ≤ t)

/-- everything a statement of call `i` can do -/
inductive Moves (lim : Limits) (args : ι → Args) (i : ι) :
    Statement → Phase → Db ι → Phase → Db ι → Prop
  | begun (start : ℕ) (db : Db ι) : Moves lim args i (.begin_ start) .idle db (.begun start) db
  | locked (start : ℕ) (db : Db ι) (hfree : db.locks (lim.hashtext (args i).userId) = none) :
      Moves lim args i .lock (.begun start) db (.locked start)
        { db with locks := Function.update db.locks (lim.hashtext (args i).userId) (some i) }
  | refused (start : ℕ) (db : Db ι)
      (hfull : lim.maxCount ≤ recentRows db.rows (args i).userId start lim.window) :
      Moves lim args i .insert (.locked start) db (.inserted start false) db
  | inserted (start : ℕ) (db : Db ι)
      (hroom : recentRows db.rows (args i).userId start lim.window < lim.maxCount) :
      Moves lim args i .insert (.locked start) db (.inserted start true)
        { db with uncommitted := db.uncommitted ++ [(i, rowOf (args i) start)] }
  | committed (acked : Bool) (start : ℕ) (affected : Bool) (db : Db ι) :
      Moves lim args i (.commit acked) (.inserted start affected) db
        (if acked then .returned affected else .thrown) (commit (args i) i start affected db)
  | failed (k : Statement) (l : Phase) (db : Db ι) : Moves lim args i k l db .failed db
  | rolledBack (db : Db ι) : Moves lim args i .rollback .failed db .thrown (db.release i)

theorem act_moves (h : act lim args i k l db = some (l', db')) : Moves lim args i k l db l' db' := by
  unfold act at h
  split at h
  · cases h; exact .begun _ _
  · dsimp only at h
    split at h
    · cases h; exact .locked _ _ ‹_›
    · cases h
  · unfold insert at h
    split_ifs at h with hroom
    · cases h; exact .failed _ _ _
    · cases h; exact .inserted _ _ hroom
    · cases h; exact .refused _ _ (not_lt.mp hroom)
  · cases h; exact .committed _ _ _ _
  · cases h; exact .failed _ _ _
  · cases h; exact .failed _ _ _
  · cases h; exact .failed _ _ _
  · cases h; exact .rolledBack _
  · cases h

/-- What call `i` may rely on: its lock, and after the INSERT that there is still room. -/
def Knows (lim : Limits) (args : ι → Args) (i : ι) : Phase → Db ι → Prop
  | .locked _, db => db.locks (lim.hashtext (args i).userId) = some i
  | .inserted start affected, db => db.locks (lim.hashtext (args i).userId) = some i ∧
      (affected = true → recentRows db.rows (args i).userId start lim.window < lim.maxCount)
  | _, _ => True

def Bounded (lim : Limits) (db : Db ι) : Prop :=
  ∀ userId t, within db.rows userId t lim.window ≤ lim.maxCount

omit [DecidableEq ι] in
/-- A new row with room left for it: the rows of any window it is in were counted. -/
theorem within_snoc (hb : Bounded lim db) {a : Args} {start : ℕ}
    (hroom : recentRows db.rows a.userId start lim.window < lim.maxCount) (userId : String) (t : ℕ) :
    within (db.rows ++ [rowOf a start]) userId t lim.window ≤ lim.maxCount := by
  unfold within
  rw [List.countP_append, List.countP_singleton]
  split_ifs with hin
  · simp only [Bool.and_eq_true, beq_iff_eq, decide_eq_true_eq] at hin
    obtain rfl : a.userId = userId := hin.1.1
    have hle : start ≤ t := hin.2
    have : within db.rows a.userId t lim.window ≤ recentRows db.rows a.userId start lim.window := by
      refine List.countP_mono_left fun r _ hr => ?_
      simp only [Bool.and_eq_true, beq_iff_eq, decide_eq_true_eq] at hr ⊢
      exact ⟨hr.1.1, by omega⟩
    unfold within at this
    omega
  · exact hb userId t

theorem moves_own (h : Moves lim args i k l db l' db') (hb : Bounded lim db)
    (hl : Knows lim args i l db) : Bounded lim db' ∧ Knows lim args i l' db' := by
  cases h with
  | begun => exact ⟨hb, trivial⟩
  | locked => exact ⟨hb, by simp [Knows]⟩
  | refused => exact ⟨hb, hl, by simp⟩
  | inserted _ _ hroom => exact ⟨hb, hl, fun _ => hroom⟩
  | committed acked start affected =>
    refine ⟨?_, by cases acked <;> trivial⟩
    cases affected with
    | true => exact within_snoc hb (hl.2 rfl)
    | false => exact hb
  | failed => exact ⟨hb, trivial⟩
  | rolledBack => exact ⟨hb, trivial⟩

theorem release_locks (hij : j ≠ i) {key : ℤ} (h : db.locks key = some j) :
    (db.release i).locks key = some j := by
  have : db.locks key ≠ some i := by rw [h]; simpa using hij
  exact (if_neg this).trans h

/-- Another call on the same user would need the lock that `j` holds. -/
theorem recent_commit (hij : j ≠ i) (hi : db.locks (lim.hashtext (args i).userId) = some i)
    (hj : db.locks (lim.hashtext (args j).userId) = some j) (start start' : ℕ) (affected : Bool) :
    recentRows (commit (args i) i start affected db).rows (args j).userId start' lim.window =
      recentRows db.rows (args j).userId start' lim.window := by
  have huser : (args i).userId ≠ (args j).userId := by
    intro heq
    rw [heq, hj] at hi
    exact hij (Option.some.inj hi)
  cases affected with
  | false => rfl
  | true => simp [commit, recentRows, Db.release, rowOf, List.countP_append, huser]

theorem moves_other (h : Moves lim args i k l db l' db') (hl : Knows lim args i l db)
    (hij : j ≠ i) {m : Phase} (hm : Knows lim args j m db) : Knows lim args j m db' := by
  have hlock : ∀ key, db.locks key = some j → db'.locks key = some j := by
    intro key hkey
    cases h with
    | begun => exact hkey
    | locked _ _ hfree =>
      have : key ≠ lim.hashtext (args i).userId := by
        rintro rfl
        simp [hfree] at hkey
      simpa [Function.update_of_ne this] using hkey
    | refused => exact hkey
    | inserted => exact hkey
    | committed acked start affected =>
      cases affected <;> exact release_locks hij hkey
    | failed => exact hkey
    | rolledBack => exact release_locks hij hkey
  have hrecent : ∀ start', db.locks (lim.hashtext (args j).userId) = some j →
      recentRows db'.rows (args j).userId start' lim.window =
        recentRows db.rows (args j).userId start' lim.window := by
    intro start' hj
    cases h with
    | committed acked start affected => exact recent_commit hij hl.1 hj _ _ _
    | begun | locked | refused | inserted | failed | rolledBack => rfl
  cases m with
  | locked start => exact hlock _ hm
  | inserted start affected => exact ⟨hlock _ hm.1, fun ha => (hrecent _ hm.1).trans_lt (hm.2 ha)⟩
  | idle | begun | failed | returned | thrown => trivial

theorem holds_step (p : Pool ι Phase (Db ι)) (m : ι × Statement)
    (hp : p.Holds (Bounded lim) (Knows lim args)) :
    (step lim args p m).Holds (Bounded lim) (Knows lim args) :=
  hp.step (fun _ _ hact => moves_own (act_moves hact) hp.1 (hp.2 _))
    fun _ _ hact j hj => moves_other (act_moves hact) (hp.2 _) hj (hp.2 j)

omit [DecidableEq ι] in
theorem holds_start : (start : Pool ι Phase (Db ι)).Holds (Bounded lim) (Knows lim args) :=
  ⟨fun _ _ => Nat.zero_le _, fun _ => trivial⟩

/-- Where in the run the INSERT of call `i` took effect, and what it counted. -/
def Ran (lim : Limits) (args : ι → Args) (ops : List (ι × Statement)) (i : ι)
    (affected : Bool) : Prop :=
  ∃ ops₁ ops₂ start₀, ops = ops₁ ++ (i, .insert) :: ops₂ ∧
    (runSteps (step lim args) start ops₁).locals i = .locked start₀ ∧
    (runSteps (step lim args) start (ops₁ ++ [(i, .insert)])).locals i =
      .inserted start₀ affected ∧
    (affected = false ↔ lim.maxCount ≤
      recentRows (runSteps (step lim args) start ops₁).shared.rows (args i).userId start₀ lim.window)

theorem Ran.snoc {ops : List (ι × Statement)} {affected : Bool} (h : Ran lim args ops i affected)
    (m : ι × Statement) : Ran lim args (ops ++ [m]) i affected := by
  obtain ⟨ops₁, ops₂, start₀, rfl, h⟩ := h
  exact ⟨ops₁, ops₂ ++ [m], start₀, by simp, h⟩

/-- the INSERT of the call has taken effect, with this many rows -/
def Phase.counted (l : Phase) (affected : Bool) : Prop :=
  (∃ start, l = .inserted start affected) ∨ l = .returned affected

theorem ran_of_counted (ops : List (ι × Statement)) {affected : Bool}
    (h : ((runSteps (step lim args) start ops).locals i).counted affected) :
    Ran lim args ops i affected := by
  induction ops using List.reverseRecOn generalizing affected with
  | nil => rcases h with ⟨_, h⟩ | h <;> cases h
  | append_singleton ops m ih =>
    have hrun : runSteps (step lim args) start (ops ++ [m]) =
        Pool.step (act lim args) (runSteps (step lim args) start ops) m := by
      rw [runSteps_append]
      rfl
    rw [hrun] at h
    by_cases hi : i = m.1
    · subst hi
      rcases Pool.step_cases (act lim args) (runSteps (step lim args) start ops) m with
        heq | ⟨l, s, hact, heq⟩
      · rw [heq] at h
        exact (ih h).snoc m
      · have hl : (Pool.step (act lim args) (runSteps (step lim args) start ops) m).locals m.1 =
            l := by
          rw [heq]; simp
        rw [hl] at h
        have hmoves := act_moves hact
        obtain ⟨i, k⟩ := m
        generalize hbefore : (runSteps (step lim args) start ops).locals i = l₀ at hmoves
        generalize hdb : (runSteps (step lim args) start ops).shared = db at hmoves
        cases hmoves with
        | begun => rcases h with ⟨_, h⟩ | h <;> cases h
        | locked => rcases h with ⟨_, h⟩ | h <;> cases h
        | refused start₀ _ hfull =>
          obtain rfl : affected = false := by rcases h with ⟨_, h⟩ | h <;> cases h; rfl
          exact ⟨ops, [], start₀, rfl, hbefore, by rw [hrun]; exact hl, by simpa [hdb] using hfull⟩
        | inserted start₀ _ hroom =>
          obtain rfl : affected = true := by rcases h with ⟨_, h⟩ | h <;> cases h; rfl
          exact ⟨ops, [], start₀, rfl, hbefore, by rw [hrun]; exact hl,
            by simpa [hdb] using hroom⟩
        | committed acked start₀ affected' =>
          obtain rfl : affected' = affected := by
            cases acked <;> rcases h with ⟨_, h⟩ | h <;> cases h
            rfl
          exact (ih (.inl ⟨start₀, hbefore⟩)).snoc _
        | failed => rcases h with ⟨_, h⟩ | h <;> cases h
        | rolledBack => rcases h with ⟨_, h⟩ | h <;> cases h
    · rw [Pool.step_locals_ne hi] at h
      exact (ih h).snoc m

/-- A call that nobody interferes with does what `insertChallengeIfUnderLimit` says: this ties the
statements of the transaction to the repository function that the MFA service is modelled with. -/
theorem solo_call (lim : Limits) (args : ι → Args) (i : ι) (st : MfaState) (start₀ : ℕ) :
    let p := runSteps (step lim args) ⟨{ rows := st.challenges }, fun _ => .idle⟩
      [(i, .begin_ start₀), (i, .lock), (i, .insert), (i, .commit true)]
    match st.insertChallengeIfUnderLimit none start₀ (args i).challengeId (args i).userId
      (args i).expiresAt lim.window lim.maxCount with
    | .ok (inserted, st') => p.locals i = .returned inserted ∧ p.shared.rows = st'.challenges
    | .error _ => p.locals i = .failed ∧ p.shared.rows = st.challenges := by
  have hcount : st.recentChallenges (args i).userId start₀ lim.window =
      recentRows st.challenges (args i).userId start₀ lim.window := rfl
  have hid : (st.getChallenge (args i).challengeId).isSome =
      st.challenges.any (·.challengeId = (args i).challengeId) := List.isSome_find?
  unfold MfaState.insertChallengeIfUnderLimit
  simp only [hcount, hid, runSteps_cons, runSteps_nil, step, Pool.step, act, insert,
    Function.update_self, List.any_nil, Bool.false_eq_true, ↓reduceIte]
  split_ifs with hroom hdup
  · simp
  · simp [commit, Db.release, rowOf]
  · simp [commit, Db.release]

/-- At most `maxCount` committed rows of a user fall into any window, whatever the order of the
statements of any number of calls; and a call answers false exactly when its INSERT found that
many rows newer than its own start minus the window. -/
theorem rate_limit_of_run (lim : Limits) (args : ι → Args) (ops : List (ι × Statement)) :
    let p := runSteps (step lim args) start ops
    (∀ userId t, within p.shared.rows userId t lim.window ≤ lim.maxCount) ∧
    ∀ i inserted, p.locals i = .returned inserted → Ran lim args ops i inserted :=
  ⟨(runSteps_keeps holds_step holds_start ops).1, fun _ _ h => ran_of_counted ops (.inr h)⟩

/-- Two calls of one user that were both begun before either inserted; the one that began
later inserts first. -/
theorem rate_limit_of_run_two :
    let lim : Limits := ⟨60000, 1, fun _ => 0⟩
    let args : Bool → Args := fun b => ⟨if b then "c1" else "c2", "alice", 0⟩
    Ran lim args
      [(true, .begin_ 100), (false, .begin_ 50), (true, .lock), (false, .lock), (true, .insert),
        (true, .commit true), (false, .lock), (false, .insert), (false, .commit true)] false false :=
  (rate_limit_of_run _ _ _).2 false false (by decide)

end RateLimit

end ZTG
