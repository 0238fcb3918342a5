import ZtGateway.Spec.Telemetry

/-! The counters of `trust_signals` against the rows of `trust_activity`. They agree as
long as no call writes over a row that was committed after it had looked and found none:
the row lock it relies on does not exist before the row does. -/

namespace ZTG

namespace Telemetry

variable {ι : Type} [DecidableEq ι] {fl : ℚ → ℚ} {args : ι → Args} {i j : ι} {k : Statement}
  {l l' : Phase} {db db' : Db ι}

/-- the committed activity of one triple -/
def Db.count (db : Db ι) (key : Triple) : ℕ := db.activity.countP fun r => r.key = key

/-- the three counters of a row -/
def SignalRow.Counts (row : SignalRow) (n : ℕ) : Prop :=
  row.allowCount = n ∧ row.anomalyObservations = n ∧ row.hourHistogram.sum = n

def Db.Consistent (db : Db ι) (key : Triple) : Prop :=
  match db.signals key with
  | none => db.count key = 0
  | some row => row.Counts (db.count key)

theorem sum_bump (hist : List ℕ) {hr : ℕ} (h : hr < 24) : (bump hist hr).sum = hist.sum + 1 := by
  have hmodify : ∀ (l : List ℕ) (n : ℕ), n < l.length → (l.modify n (· + 1)).sum = l.sum + 1 := by
    intro l
    induction l with
    | nil => intro n hn; simp at hn
    | cons x l ih =>
      intro n hn
      cases n with
      | zero => simp; omega
      | succ n => simp [ih n (by simpa using hn)]; omega
  rw [bump, hmodify _ _ (by simp; omega)]
  simp

theorem Args.hr_lt (a : Args) : a.hr < 24 := by
  unfold Args.hr
  omega

theorem computed_counts (a : Args) {existing : Option SignalRow} {n : ℕ}
    (h : match existing with | none => n = 0 | some row => row.Counts n) :
    (computed fl a existing).Counts (n + 1) := by
  have hhr := a.hr_lt
  cases existing with
  | none =>
    subst h
    have : ∀ hr < 24, ((List.replicate 24 0).set hr 1).sum = 1 := by decide
    exact ⟨rfl, rfl, this _ hhr⟩
  | some row =>
    obtain ⟨hallow, hobs, hhist⟩ := h
    exact ⟨congrArg (· + 1) hallow, congrArg (· + 1) hobs, by
      rw [← hhist]; exact sum_bump _ hhr⟩

/-- everything a statement of call `i` can do -/
inductive Moves (fl : ℚ → ℚ) (args : ι → Args) (i : ι) :
    Statement → Phase → Db ι → Phase → Db ι → Prop
  | quiet (k : Statement) (l l' : Phase) (db : Db ι) (h : ∀ row, l' ≠ .selected (some row))
      (h' : ∀ row, l' ≠ .upserted row) : Moves fl args i k l db l' db
  | selected (row : SignalRow) (db : Db ι) (hrow : db.signals (args i).key = some row)
      (hfree : db.free (args i).key i = true) :
      Moves fl args i .select .active db (.selected (some row)) (db.hold (args i).key i)
  | inserted (existing : Option SignalRow) (db : Db ι) (hrow : db.signals (args i).key = none)
      (hfree : db.free (args i).key i = true) :
      Moves fl args i .upsert (.selected existing) db
        (.upserted (computed fl (args i) existing)) (db.hold (args i).key i)
  | updated (existing : Option SignalRow) (old : SignalRow) (db : Db ι)
      (hrow : db.signals (args i).key = some old) (hfree : db.free (args i).key i = true) :
      Moves fl args i .upsert (.selected existing) db
        (.upserted (doUpdate old (computed fl (args i) existing))) (db.hold (args i).key i)
  | committed (acked : Bool) (row : SignalRow) (db : Db ι) :
      Moves fl args i (.commit acked) (.upserted row) db (if acked then .returned else .thrown)
        (commit (args i) i row db)
  | rolledBack (db : Db ι) : Moves fl args i .rollback .failed db .thrown (db.release i)

theorem act_moves (h : act fl args i k l db = some (l', db')) : Moves fl args i k l db l' db' := by
  unfold act at h
  split at h
  · cases h; exact .quiet _ _ _ _ (by simp) (by simp)
  · cases h; exact .quiet _ _ _ _ (by simp) (by simp)
  · unfold select at h
    split at h
    · cases h; exact .quiet _ _ _ _ (by simp) (by simp)
    · split_ifs at h with hfree
      cases h; exact .selected _ _ ‹_› hfree
  · unfold upsert at h
    split_ifs at h with hfree
    dsimp only at h
    split at h
    · cases h; exact .inserted _ _ ‹_› hfree
    · cases h; exact .updated _ _ _ ‹_› hfree
  · cases h; exact .committed _ _ _
  · cases h; exact .quiet _ _ _ _ (by simp) (by simp)
  · cases h; exact .quiet _ _ _ _ (by simp) (by simp)
  · cases h; exact .quiet _ _ _ _ (by simp) (by simp)
  · cases h; exact .quiet _ _ _ _ (by simp) (by simp)
  · cases h; exact .rolledBack _
  · cases h

/-- What call `i` may rely on once it holds the row. -/
def Knows (args : ι → Args) (i : ι) : Phase → Db ι → Prop
  | .selected (some row), db =>
    db.holder (args i).key = some i ∧ db.signals (args i).key = some row
  | .upserted row, db =>
    db.holder (args i).key = some i ∧ row.Counts (db.count (args i).key + 1)
  | _, _ => True

/-- The upsert is not the write of a call that found no row over one committed since. -/
def Current (args : ι → Args) (key : Triple) (p : Pool ι Phase (Db ι)) (m : ι × Statement) : Prop :=
  (args m.1).key = key → m.2 = .upsert → p.locals m.1 = .selected none →
    p.shared.signals key = none

instance (args : ι → Args) (key : Triple) (p : Pool ι Phase (Db ι)) (m : ι × Statement) :
    Decidable (Current args key p m) := inferInstanceAs (Decidable (_ → _ → _ → _))

theorem count_commit (a : Args) (i : ι) (row : SignalRow) (db : Db ι) (key : Triple) :
    (commit a i row db).count key = db.count key + if a.key = key then 1 else 0 := by
  simp [Db.count, commit, List.countP_append, List.countP_singleton, Args.activity]

theorem moves_own (h : Moves fl args i k l db l' db') (hc : db.Consistent (args i).key)
    (hl : Knows args i l db)
    (hcur : k = .upsert → l = .selected none → db.signals (args i).key = none) :
    db'.Consistent (args i).key ∧ Knows args i l' db' := by
  cases h with
  | quiet _ _ l' _ hsel hups =>
    refine ⟨hc, ?_⟩
    cases l' with
    | selected existing =>
      cases existing with
      | none => trivial
      | some row => exact absurd rfl (hsel row)
    | upserted row => exact absurd rfl (hups row)
    | idle | begun | active | failed | returned | thrown => trivial
  | selected row _ hrow hfree => exact ⟨hc, by simp [Db.hold], hrow⟩
  | inserted existing _ hrow hfree =>
    refine ⟨hc, by simp [Db.hold], computed_counts _ ?_⟩
    rw [Db.Consistent, hrow] at hc
    cases existing with
    | none => exact hc
    | some row => simp [hl.2] at hrow
  | updated existing old _ hrow hfree =>
    refine ⟨hc, by simp [Db.hold], ?_⟩
    rw [Db.Consistent, hrow] at hc
    cases existing with
    | none => simp [hcur rfl rfl] at hrow
    | some row =>
      obtain rfl : row = old := Option.some.inj (hl.2.symm.trans hrow)
      exact @computed_counts fl (args i) (some row) _ hc
  | committed acked row =>
    refine ⟨?_, by cases acked <;> trivial⟩
    rw [Db.Consistent, count_commit]
    simpa [commit] using hl.2
  | rolledBack => exact ⟨hc, trivial⟩

/-- A call on another triple leaves this one alone. -/
theorem moves_foreign (h : Moves fl args i k l db l' db') {key : Triple} (hkey : (args i).key ≠ key)
    (hc : db.Consistent key) : db'.Consistent key := by
  cases h with
  | committed acked row =>
    rw [Db.Consistent] at hc
    rw [Db.Consistent, count_commit, if_neg hkey]
    simpa [commit, Function.update_of_ne (Ne.symm hkey)] using hc
  | quiet | selected | inserted | updated | rolledBack => exact hc

theorem moves_other (h : Moves fl args i k l db l' db')
    (hl : (args i).key = (args j).key → Knows args i l db) (hij : j ≠ i) {m : Phase}
    (hm : Knows args j m db) : Knows args j m db' := by
  have hheld : db.holder (args j).key = some j → db.free (args i).key i = true →
      (args j).key ≠ (args i).key := by
    intro hj hfree heq
    rw [Db.free, ← heq, hj] at hfree
    simp [hij] at hfree
  have hrelease : db.holder (args j).key = some j → (db.release i).holder (args j).key = some j := by
    intro hj
    have : db.holder (args j).key ≠ some i := by rw [hj]; simpa using hij
    exact (if_neg this).trans hj
  have hkept : db.holder (args j).key = some j → db'.holder (args j).key = some j ∧
      db'.signals (args j).key = db.signals (args j).key ∧
      db'.count (args j).key = db.count (args j).key := by
    intro hj
    cases h with
    | quiet => exact ⟨hj, rfl, rfl⟩
    | selected _ _ _ hfree | inserted _ _ _ hfree | updated _ _ _ _ hfree =>
      exact ⟨by simpa [Db.hold, Function.update_of_ne (hheld hj hfree)] using hj, rfl, rfl⟩
    | committed acked row =>
      have hne : (args j).key ≠ (args i).key := by
        intro heq
        rw [heq, (hl heq.symm).1] at hj
        exact hij (Option.some.inj hj).symm
      exact ⟨hrelease hj, by simp [commit, Function.update_of_ne hne],
        by rw [count_commit, if_neg (Ne.symm hne), add_zero]⟩
    | rolledBack => exact ⟨hrelease hj, rfl, rfl⟩
  cases m with
  | selected existing =>
    cases existing with
    | none => trivial
    | some row =>
      obtain ⟨hh, hs, -⟩ := hkept hm.1
      exact ⟨hh, hs.trans hm.2⟩
  | upserted row =>
    obtain ⟨hh, -, hn⟩ := hkept hm.1
    exact ⟨hh, hn ▸ hm.2⟩
  | idle | begun | active | failed | returned | thrown => trivial

/-- What holds of the calls on one triple. -/
def KnowsOn (args : ι → Args) (key : Triple) (i : ι) (l : Phase) (db : Db ι) : Prop :=
  (args i).key = key → Knows args i l db

theorem holds_step {key : Triple} (p : Pool ι Phase (Db ι)) (m : ι × Statement)
    (hp : p.Holds (Db.Consistent · key) (KnowsOn args key)) (hm : Current args key p m) :
    (step fl args p m).Holds (Db.Consistent · key) (KnowsOn args key) := by
  refine hp.step (fun l s hact => ?_) fun l s hact j hj => ?_
  · by_cases hkey : (args m.1).key = key
    · subst hkey
      obtain ⟨hc, hk⟩ := moves_own (act_moves hact) hp.1 (hp.2 m.1 rfl) (hm rfl)
      exact ⟨hc, fun _ => hk⟩
    · exact ⟨moves_foreign (act_moves hact) hkey hp.1, fun h => absurd h hkey⟩
  · intro hkey
    exact moves_other (act_moves hact) (fun h => hp.2 m.1 (h.trans hkey)) hj (hp.2 j hkey)

/-- no call on the triple is between its BEGIN and its end -/
def Settled (args : ι → Args) (key : Triple) (p : Pool ι Phase (Db ι)) : Prop :=
  ∀ i, (args i).key = key → p.locals i = .idle ∨ p.locals i = .returned ∨ p.locals i = .thrown

/-- No update is lost in a run in which every upsert on the triple is current: in every state
reached, and so in every settled one, the counters equal the committed activity. -/
theorem counts_of_run (fl : ℚ → ℚ) (args : ι → Args) (key : Triple) (db : Db ι)
    (hdb : db.Consistent key) (ops : List (ι × Statement))
    (hops : Along (step fl args) (Current args key) (start db) ops) :
    (runSteps (step fl args) (start db) ops).shared.Consistent key := by
  have hstart : (start db).Holds (Db.Consistent · key) (KnowsOn args key) :=
    ⟨hdb, fun _ _ => trivial⟩
  exact (runSteps_invariant holds_step hstart hops).1

/-- two first requests from one place -/
def twinArgs : Bool → Args := fun b =>
  ⟨⟨"alice", "phone", "10.0.0.1", "ge11"⟩, .num 0, if b then 1000 else 2000⟩

/-- Both look before either has written; the second one to write overwrites the first. -/
def twinRun : List (Bool × Statement) :=
  [(true, .begin_), (false, .begin_), (true, .insertActivity), (false, .insertActivity),
    (true, .select), (false, .select), (true, .upsert), (true, .commit true), (false, .upsert),
    (false, .commit true)]

theorem twin_update_lost :
    let p := runSteps (step id twinArgs) (start {}) twinRun
    (({} : Db Bool).Consistent (twinArgs true).key ∧ Settled twinArgs (twinArgs true).key p) ∧
      (p.shared.signals (twinArgs true).key).map (·.allowCount) = some 1 ∧
      p.shared.count (twinArgs true).key = 2 ∧ ¬ p.shared.Consistent (twinArgs true).key := by
  have hrow : ((runSteps (step id twinArgs) (start {}) twinRun).shared.signals
      (twinArgs true).key).map (·.allowCount) = some 1 := by decide +kernel
  have hcount : (runSteps (step id twinArgs) (start {}) twinRun).shared.count
      (twinArgs true).key = 2 := by decide +kernel
  refine ⟨⟨rfl, fun i _ => ?_⟩, hrow, hcount, fun h => ?_⟩
  · cases i
    · exact .inr (.inl (by decide +kernel))
    · exact .inr (.inl (by decide +kernel))
  · unfold Db.Consistent at h
    rw [hcount] at h
    generalize (runSteps (step id twinArgs) (start {}) twinRun).shared.signals
      (twinArgs true).key = row at h hrow
    cases row with
    | none => simp at hrow
    | some row => simp [SignalRow.Counts] at h hrow; omega

/-- the same two requests one after the other -/
theorem counts_of_run_twins :
    let ops : List (Bool × Statement) := [(true, .begin_), (true, .insertActivity), (true, .select),
      (true, .upsert), (true, .commit true), (false, .begin_), (false, .insertActivity),
      (false, .select), (false, .upsert), (false, .commit true)]
    let p := runSteps (step id twinArgs) (start {}) ops
    p.shared.count (twinArgs true).key = 2 ∧ p.shared.Consistent (twinArgs true).key := by
  exact ⟨by decide +kernel, counts_of_run id twinArgs _ {} rfl _ (by decide +kernel)⟩

end Telemetry

end ZTG
