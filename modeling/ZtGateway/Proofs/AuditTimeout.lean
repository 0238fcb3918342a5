import ZtGateway.Lib.Alike
import ZtGateway.Proofs.Forward

/-! The audit write of a stage that has already decided, raced against its timeout. The
repository may succeed, fail or never answer at each attempt, after any time; the outcome of the
stage is compared with the one it has when the row is written at once. -/

namespace ZTG

open Act

/-- the ranges of `validationSchema` -/
structure AuditConfig.Valid (cfg : AuditConfig) : Prop where
  walBaseDelayMs : 1 ≤ cfg.walBaseDelayMs
  walMaxRetries : 1 ≤ cfg.walMaxRetries ∧ cfg.walMaxRetries ≤ 10

/-- what `AuditRepository.insert` does at one attempt; without a latency it never answers -/
structure Insert where
  latency : Option ℕ
  result : Except Err Unit

/-- the attempts at one row, in order -/
abbrev Inserts := ℕ → Insert

def Inserts.succeed : Inserts := fun _ => ⟨some 0, .ok ()⟩

/-- The attempt fails, and says so. -/
def Insert.Fails (i : Insert) : Prop := i.latency ≠ none ∧ i.result ≠ .ok ()

/-- `t` milliseconds are over before the timer of 200 ms fires; `tie` if the timer is first when
both are due at once -/
def inTime (tie : Bool) (t : ℕ) : Bool := if tie then t < 200 else t ≤ 200

theorem inTime_of_le {tie : Bool} {t t' : ℕ} (h : t ≤ t') (ht : inTime tie t' = true) :
    inTime tie t = true := by
  cases tie <;> simp_all [inTime] <;> omega

/-- the delay that `setTimeout` keeps, for `sleep`: one of 2^31 ms or more is cut to 1 ms -/
def timerDelay (ms : ℕ) : ℕ := if 1 ≤ ms ∧ ms ≤ 2 ^ 31 - 1 then ms else 1

/-- the wait after the failed attempt `k` -/
def AuditConfig.backoffDelay (cfg : AuditConfig) (k : ℕ) : ℕ :=
  timerDelay (cfg.walBaseDelayMs * 2 ^ k)

example : AuditConfig.backoffDelay { walBaseDelayMs := 2 ^ 31, walMaxRetries := 3 } 1 = 1 := rfl

/-- how far a write has come -/
structure Progress where
  attempts : ℕ := 0
  backoffs : ℕ := 0
  elapsed : ℕ := 0

namespace Progress

def after (ins : Inserts) (p : Progress) (e : Event Call Reply) : Progress :=
  match e.op with
  | .auditInsert _ =>
    { p with attempts := p.attempts + 1,
             elapsed := p.elapsed + (ins p.attempts).latency.getD 0 }
  | .sleep ms => { p with backoffs := p.backoffs + 1, elapsed := p.elapsed + timerDelay ms }
  | _ => p

/-- how long the next step takes: an attempt, or after a failed one the backoff -/
def nextWait (cfg : AuditConfig) (ins : Inserts) (p : Progress) : Option ℕ :=
  if p.attempts = p.backoffs then (ins p.attempts).latency
  else some (cfg.backoffDelay (p.attempts - 1))

def timerFirst (cfg : AuditConfig) (ins : Inserts) (tie : Bool) (p : Progress) : Bool :=
  match p.nextWait cfg ins with
  | none => true
  | some wait => !inTime tie (p.elapsed + wait)

end Progress

def progress (ins : Inserts) (tr : Trace Call Reply) : Progress :=
  tr.foldl (Progress.after ins) {}

/-- the calls that are part of writing a row -/
def Call.ofAudit : Call → Bool
  | .auditInsert _ | .sleep _ | .timer _ => true
  | .metric .incrementAuditFailure => true
  | .log (.auditTimeout ..) | .log .bestEffortFailed => true
  | .emit .auditRecordFailed _ => true
  | _ => false

/-- what the services see of a run -/
def unaudited (tr : Trace Call Reply) : Trace Call Reply := tr.only fun op => !op.ofAudit

/-- The repository behaves as `ins`, the clock of the race follows it, and all else is answered
by `services`, whatever the audit write does. -/
def auditEnv (cfg : AuditConfig) (ins : Inserts) (tie : Bool) (services : Env Call Reply) :
    Env Call Reply := fun tr op =>
  match op with
  | .auditInsert _ => (ins (progress ins tr).attempts).result
  | .timer _ => (progress ins tr).timerFirst cfg ins tie
  | op => services (unaudited tr) op

/-- All attempts fail, and the last one before the timer: the latencies of the attempts and the
backoffs between them, as `setTimeout` keeps them, are in time. -/
def ExhaustedInTime (cfg : AuditConfig) (ins : Inserts) (tie : Bool) : Prop :=
  (∀ k < cfg.walMaxRetries, (ins k).Fails) ∧
    inTime tie (∑ k ∈ Finset.range cfg.walMaxRetries, (ins k).latency.getD 0 +
      ∑ k ∈ Finset.range (cfg.walMaxRetries - 1), cfg.backoffDelay k) = true

variable {cfg : AuditConfig} {ins : Inserts} {tie : Bool} {services : Env Call Reply}
  {s : StageContext} {tr : Trace Call Reply}

theorem progress_append (tr tr' : Trace Call Reply) :
    progress ins (tr ++ tr') = tr'.foldl (Progress.after ins) (progress ins tr) :=
  List.foldl_append

/-- `ExhaustedInTime` for the attempts from `k` on, after `t` milliseconds -/
def ExhaustsFrom (cfg : AuditConfig) (ins : Inserts) (tie : Bool) (k left t : ℕ) : Prop :=
  (∀ i ∈ Finset.Ico k (k + left), (ins i).Fails) ∧
    inTime tie (t + (∑ i ∈ Finset.Ico k (k + left), (ins i).latency.getD 0 +
      ∑ i ∈ Finset.Ico k (k + left - 1), cfg.backoffDelay i)) = true

/-- before an attempt -/
theorem timerFirst_attempt {k t : ℕ} (h : progress ins tr = ⟨k, k, t⟩) :
    (progress ins tr).timerFirst cfg ins tie = match (ins k).latency with
      | none => true
      | some w => !inTime tie (t + w) := by
  simp only [h, Progress.timerFirst, Progress.nextWait, if_true]

/-- before a backoff -/
theorem timerFirst_backoff {k t : ℕ} (h : progress ins tr = ⟨k + 1, k, t⟩) :
    (progress ins tr).timerFirst cfg ins tie = !inTime tie (t + cfg.backoffDelay k) := by
  simp [h, Progress.timerFirst, Progress.nextWait]

theorem ExhaustsFrom.first {k left t : ℕ} (h : ExhaustsFrom cfg ins tie k (left + 1) t) :
    (ins k).Fails ∧ inTime tie (t + (ins k).latency.getD 0) = true := by
  refine ⟨h.1 k (by simp), inTime_of_le ?_ h.2⟩
  have hk : k ∈ Finset.Ico k (k + (left + 1)) := by simp
  have := Finset.single_le_sum (f := fun i => (ins i).latency.getD 0) (fun _ _ => Nat.zero_le _) hk
  omega

theorem ExhaustsFrom.start {k left t : ℕ} (h : ExhaustsFrom cfg ins tie k left t) :
    inTime tie t = true :=
  inTime_of_le (Nat.le_add_right _ _) h.2

/-- The first of several attempts fails and the backoff passes in time. -/
theorem exhaustsFrom_succ {k left t w : ℕ} (hleft : 0 < left) (hw : (ins k).latency = some w)
    (hfails : (ins k).result ≠ .ok ()) :
    ExhaustsFrom cfg ins tie k (left + 1) t ↔
      ExhaustsFrom cfg ins tie (k + 1) left (t + w + cfg.backoffDelay k) := by
  unfold ExhaustsFrom
  have hends : k + (left + 1) = k + 1 + left ∧ k + (left + 1) - 1 = k + 1 + left - 1 := by omega
  rw [hends.1, Finset.sum_eq_sum_Ico_succ_bot (by omega : k < k + 1 + left),
    Finset.sum_eq_sum_Ico_succ_bot (by omega : k < k + 1 + left - 1)]
  refine and_congr ⟨fun h i hi => h i (by simp at hi ⊢; omega), fun h i hi => ?_⟩ ?_
  · rcases Nat.eq_or_lt_of_le (Finset.mem_Ico.mp hi).1 with rfl | hlt
    · exact ⟨by simp [hw], hfails⟩
    · exact h i (by simp at hi ⊢; omega)
  · rw [hw, Option.getD_some]
    exact iff_of_eq (congrArg (inTime tie · = true) (by ring))

/-- the error of a write that ran out of attempts -/
def exhausted (cfg : AuditConfig) : Err :=
  .auditExhausted ("Audit WAL exhausted after " ++ toString cfg.walMaxRetries ++ " retries")

/-- How a write ends that throws exactly if `rejects` holds. -/
structure RejectsIff {α : Type} (cfg : AuditConfig) (rejects : Prop) (s : StageContext)
    (x : Except Err α × StageContext) : Prop where
  result : x.1 = .error (exhausted cfg) ∧ rejects ∨ (∃ a, x.1 = .ok a) ∧ ¬ rejects
  state : x.2 = s

theorem RejectsIff.rejected {α : Type} {rejects : Prop} (h : rejects) :
    RejectsIff cfg rejects s ((.error (exhausted cfg), s) : Except Err α × StageContext) :=
  ⟨.inl ⟨rfl, h⟩, rfl⟩

theorem RejectsIff.returned {α : Type} {rejects : Prop} (a : α) (h : ¬ rejects) :
    RejectsIff cfg rejects s (.ok a, s) :=
  ⟨.inr ⟨⟨a, rfl⟩, h⟩, rfl⟩

section Wait

variable {α : Type} {op : Call} {f : Reply op → α} {g : α → GwM Unit}

theorem race_timer (hop : op.awaited = true)
    (h : (progress ins tr).timerFirst cfg ins tie = true) :
    exec (auditEnv cfg ins tie services) (race Call.awaited (.timer 200) id
      (call op (fun a => .ok (f a)) >>= g)) s tr =
        ((.ok none, s), tr ++ [⟨.timer 200, true⟩]) := by
  have hans : auditEnv cfg ins tie services tr (.timer 200) = true := h
  rw [exec_race_await hop, hans]
  rfl

theorem race_next (hop : op.awaited = true)
    (h : (progress ins tr).timerFirst cfg ins tie = false) :
    let tr' := tr ++ [⟨.timer 200, false⟩]
    exec (auditEnv cfg ins tie services) (race Call.awaited (.timer 200) id
      (call op (fun a => .ok (f a)) >>= g)) s tr =
        exec (auditEnv cfg ins tie services) (race Call.awaited (.timer 200) id
          (g (f (auditEnv cfg ins tie services tr' op)))) s
          (tr' ++ [⟨op, auditEnv cfg ins tie services tr' op⟩]) := by
  have hans : auditEnv cfg ins tie services tr (.timer 200) = false := h
  rw [exec_race_await hop, hans]
  rfl

end Wait

/-- The attempts from `k` on, `t` milliseconds after the race began. -/
theorem race_writeBlocking (entry : AuditEntry) (left : ℕ) {k t : ℕ}
    (hk : k + left = cfg.walMaxRetries) (hp : progress ins tr = ⟨k, k, t⟩)
    (ht : inTime tie t = true) :
    RejectsIff cfg (ExhaustsFrom cfg ins tie k left t) s
      (exec (auditEnv cfg ins tie services)
        (race Call.awaited (.timer 200) id (writeBlockingFrom cfg entry left)) s tr).1 := by
  induction left generalizing tr k t with
  | zero => exact .rejected ⟨by simp, by simpa using ht⟩
  | succ left ih =>
    have hattempt : cfg.walMaxRetries - (left + 1) = k := by omega
    simp only [writeBlockingFrom, hattempt]
    cases hw : (ins k).latency with
    | none =>
      rw [race_timer rfl (by rw [timerFirst_attempt hp, hw])]
      exact .returned none fun h => h.first.1.1 hw
    | some w =>
      by_cases hin : inTime tie (t + w) = true
      · rw [race_next rfl (by simp [timerFirst_attempt hp, hw, hin])]
        have hp' : progress ins (tr ++ [⟨.timer 200, false⟩]) = ⟨k, k, t⟩ := by
          rw [progress_append, hp]
          rfl
        have hinsert : auditEnv cfg ins tie services (tr ++ [⟨.timer 200, false⟩])
            (.auditInsert entry) = (ins k).result :=
          congrArg (fun p : Progress => (ins p.attempts).result) hp'
        rw [hinsert]
        cases hresult : (ins k).result with
        | ok u => exact .returned (some ()) fun h => h.first.1.2 hresult
        | error e =>
          have hp₁ : progress ins
              (tr ++ [⟨.timer 200, false⟩] ++ [⟨.auditInsert entry, .error e⟩]) =
                ⟨k + 1, k, t + w⟩ := by
            rw [progress_append, hp']
            simp [Progress.after, hw]
          have hfails : (ins k).result ≠ .ok () := by simp [hresult]
          dsimp only
          split_ifs with hmore
          · -- attempts are left: the backoff
            rw [show (tell (.sleep (cfg.walBaseDelayMs * 2 ^ k)) : GwM Unit) =
                call (.sleep (cfg.walBaseDelayMs * 2 ^ k)) fun _ => .ok () from rfl,
              exhaustsFrom_succ (by omega) hw hfails]
            by_cases hback : inTime tie (t + w + cfg.backoffDelay k) = true
            · rw [race_next rfl (by rw [timerFirst_backoff hp₁, hback]; rfl)]
              refine ih (by omega) ?_ hback
              rw [progress_append, progress_append, hp₁]
              rfl
            · rw [race_timer rfl (by rw [timerFirst_backoff hp₁]; simpa using hback)]
              exact .returned none fun h => hback h.start
          · obtain rfl : left = 0 := by omega
            refine .rejected ⟨?_, by simpa [hw] using hin⟩
            intro i hi
            obtain rfl : i = k := by
              simp only [Finset.mem_Ico] at hi
              omega
            exact ⟨by simp [hw], hfails⟩
      · rw [race_timer rfl (by simp [timerFirst_attempt hp, hw, hin])]
        refine .returned none fun h => hin ?_
        simpa [hw] using h.first.2

theorem exhaustedInTime_iff :
    ExhaustedInTime cfg ins tie ↔ ExhaustsFrom cfg ins tie 0 cfg.walMaxRetries 0 := by
  simp [ExhaustedInTime, ExhaustsFrom]

/-- A row that is an ALLOW rejects exactly if its attempts are exhausted in time; any other row
never does. -/
theorem record_rejectsIff (entry : AuditEntry) (hp : progress ins tr = {}) :
    RejectsIff cfg (entry.decision = .allow ∧ ExhaustedInTime cfg ins tie) s
      (exec (auditEnv cfg ins tie services) (recordWithTimeoutBestEffort cfg entry) s tr).1 := by
  by_cases hallow : entry.decision = .allow
  · have hrace := @race_writeBlocking cfg ins tie services s tr entry cfg.walMaxRetries 0 0
      (Nat.zero_add _) hp (by cases tie <;> rfl)
    rw [← exhaustedInTime_iff] at hrace
    rw [recordWithTimeoutBestEffort, exec_bind, auditLog, if_pos hallow, writeBlocking]
    rcases hx : exec (auditEnv cfg ins tie services) (race Call.awaited (.timer 200) id
      (writeBlockingFrom cfg entry cfg.walMaxRetries)) s tr with ⟨⟨r, s'⟩, tr'⟩
    rw [hx] at hrace
    obtain ⟨hresult, rfl⟩ := hrace
    rcases hresult with ⟨rfl, hexh⟩ | ⟨⟨o, rfl⟩, hexh⟩
    · exact .rejected ⟨hallow, hexh⟩
    · cases o with
      | none => exact .returned () fun h => hexh h.2
      | some u => exact .returned () fun h => hexh h.2
  · obtain ⟨hstate, a, hok⟩ := Prog.exec_leaves (auditEnv cfg ins tie services)
      (@recordWithTimeoutBestEffort_succeeds cfg entry hallow s) tr
    exact ⟨.inr ⟨⟨a, hok⟩, fun h => hallow h.1⟩, hstate⟩

theorem record_ofAudit (entry : AuditEntry) :
    (recordWithTimeoutBestEffort cfg entry).Uses fun op => op.ofAudit = true := by
  refine .bind (.race rfl ?_) fun r => ?_
  · unfold auditLog
    split_ifs
    · exact writeBlockingFrom_uses entry _ rfl fun _ => rfl
    · refine .bind (.call (by rfl) _) fun r => ?_
      cases r with
      | ok u => exact .pure _
      | error e => exact .bind (.tell (by rfl)) fun _ => .bind (.tell (by rfl)) fun _ => .pure _
  · cases r with
    | some u => exact .pure _
    | none => exact .bind (.tell (by rfl)) fun _ => .bind (.tell (by rfl)) fun _ => .pure _

/-- The two runs differ in nothing but audit calls. -/
def SameView (tr₁ tr₂ : Trace Call Reply) : Prop := unaudited tr₁ = unaudited tr₂

/-- No row was written yet, in either run. -/
structure Unwritten (ins : Inserts) (tr₁ tr₂ : Trace Call Reply) : Prop where
  view : SameView tr₁ tr₂
  first : progress ins tr₁ = {}
  second : progress .succeed tr₂ = {}

/-- the repository behaves as `ins`, or writes every row at once -/
abbrev SameOutcome {α : Type} (cfg : AuditConfig) (ins : Inserts) (tie : Bool)
    (services : Env Call Reply) (R : Trace Call Reply → Trace Call Reply → Prop) (m : GwM α)
    (R' : Trace Call Reply → Trace Call Reply → Prop) : Prop :=
  Alike (auditEnv cfg ins tie services) (auditEnv cfg .succeed tie services) R m R'

theorem auditEnv_service {op : Call} (h : op.ofAudit = false) :
    auditEnv cfg ins tie services tr op = services (unaudited tr) op := by
  cases op <;> first | rfl | cases h

theorem SameView.snoc {tr₁ tr₂ : Trace Call Reply} (h : SameView tr₁ tr₂) (e : Event Call Reply) :
    SameView (tr₁ ++ [e]) (tr₂ ++ [e]) := by
  unfold SameView unaudited at *
  rw [Trace.only_append, Trace.only_append, h]

theorem progress_snoc {e : Event Call Reply} (h : e.op.ofAudit = false) :
    progress ins (tr ++ [e]) = progress ins tr := by
  obtain ⟨op, a⟩ := e
  rw [progress_append]
  cases op <;> first | rfl | cases h

theorem service_view {α : Type} {op : Call} (h : op.ofAudit = false)
    (f : Reply op → Except Err α) :
    SameOutcome cfg ins tie services SameView (call op f) SameView :=
  .call f fun tr₁ tr₂ hview =>
    ⟨by rw [auditEnv_service h, auditEnv_service h, show unaudited tr₁ = _ from hview],
      fun a => hview.snoc _⟩

theorem service_unwritten {α : Type} {op : Call} (h : op.ofAudit = false)
    (f : Reply op → Except Err α) :
    SameOutcome cfg ins tie services (Unwritten ins) (call op f) (Unwritten ins) := by
  refine .call f fun tr₁ tr₂ hR => ⟨?_, fun a => ⟨hR.view.snoc _, ?_, ?_⟩⟩
  · rw [auditEnv_service h, auditEnv_service h, show unaudited tr₁ = _ from hR.view]
  · exact (progress_snoc h).trans hR.first
  · exact (progress_snoc h).trans hR.second

theorem not_exhaustedInTime_succeed (hcfg : cfg.Valid) : ¬ ExhaustedInTime cfg .succeed tie :=
  fun h => (h.1 0 hcfg.walMaxRetries.1).2 rfl

/-- A row whose write does not reject leaves no difference. -/
theorem record_alike (hcfg : cfg.Valid) (entry : AuditEntry)
    (h : ¬ (entry.decision = .allow ∧ ExhaustedInTime cfg ins tie)) :
    SameOutcome cfg ins tie services (Unwritten ins) (recordWithTimeoutBestEffort cfg entry)
      SameView := by
  intro s tr₁ tr₂ hR
  have hadded : ∀ ins tr, unaudited (exec (auditEnv cfg ins tie services)
      (recordWithTimeoutBestEffort cfg entry) s tr).2 = unaudited tr := by
    intro ins tr
    obtain ⟨new, hnew, hall⟩ :=
      exec_uses (@record_ofAudit cfg entry) (auditEnv cfg ins tie services) s tr
    have hnil : unaudited new = [] := Trace.only_eq_nil fun e he => by simp [hall e he]
    unfold unaudited at hnil ⊢
    rw [hnew, Trace.only_append, hnil, List.append_nil]
  obtain ⟨h₁, hs₁⟩ := @record_rejectsIff cfg ins tie services s tr₁ entry hR.first
  obtain ⟨h₂, hs₂⟩ := @record_rejectsIff cfg .succeed tie services s tr₂ entry hR.second
  rcases h₁ with ⟨-, hrejects⟩ | ⟨⟨a₁, hok₁⟩, -⟩
  · exact absurd hrejects h
  rcases h₂ with ⟨-, hrejects⟩ | ⟨⟨a₂, hok₂⟩, -⟩
  · exact absurd hrejects.2 (not_exhaustedInTime_succeed hcfg)
  refine ⟨Prod.ext (hok₁.trans hok₂.symm) (hs₁.trans hs₂.symm), fun _ _ => ?_⟩
  exact (hadded ins tr₁).trans (hR.view.trans (hadded .succeed tr₂).symm)

variable {gw : GatewayConfig}

theorem auth_alike (hcfg : gw.audit.Valid) :
    SameOutcome gw.audit ins tie services (Unwritten ins) (authStage gw).run SameView := by
  refine .bind .get fun ctx => .bind (service_unwritten rfl _) fun o => ?_
  cases o with
  | ok claims => exact .bind (.modify _) fun _ => .pure _ fun _ _ h => h.view
  | invalid reason message =>
    refine .bind (record_alike hcfg _ (by simp)) fun _ => .bind (service_view rfl _) fun ts => ?_
    exact .bind (service_view rfl _) fun _ => .pure _ fun _ _ h => h

theorem revocation_alike (hcfg : gw.audit.Valid) :
    SameOutcome gw.audit ins tie services (Unwritten ins) (revocationStage gw).run SameView := by
  refine .bind .get fun ctx => ?_
  cases ctx.claims with
  | none => exact .pure _ fun _ _ h => h.view
  | some claims =>
    refine .bind (service_unwritten rfl _) fun revoked => ?_
    cases revoked with
    | false => exact .pure _ fun _ _ h => h.view
    | true => exact .bind (record_alike hcfg _ (by simp)) fun _ => .pure _ fun _ _ h => h

theorem rejectMfa_alike (hcfg : gw.audit.Valid) (ctx : StageContext) (claims : UserClaims) :
    SameOutcome gw.audit ins tie services (Unwritten ins) (rejectMfa gw ctx claims) SameView := by
  refine .bind (service_unwritten rfl _) fun _ =>
    .bind (record_alike hcfg _ (by simp [auditRow])) fun _ => .bind (service_view rfl _) fun _ =>
      .bind (service_view rfl _) fun ch => ?_
  cases buildMfaChallengeOutcome gw.platform ch ctx.requestId with
  | ok o => exact .pure _ fun _ _ h => h
  | error e => exact .throw e

theorem mfaPromotion_alike (hcfg : gw.audit.Valid) :
    SameOutcome gw.audit ins tie services (Unwritten ins) (mfaPromotionStage gw).run SameView := by
  refine .bind .get fun ctx => ?_
  cases ctx.claims with
  | none => exact .throw _
  | some claims =>
    cases ctx.policyDecision with
    | none => exact .throw _
    | some d =>
      dsimp only
      cases d.decision with
      | allow => exact .pure _ fun _ _ h => h.view
      | deny =>
        exact .bind (record_alike hcfg _ (by simp [auditRow])) fun _ =>
          .bind (service_view rfl _) fun _ => .pure _ fun _ _ h => h
      | challenge =>
        dsimp only
        split_ifs
        · exact rejectMfa_alike hcfg ctx claims
        · refine .bind (service_unwritten rfl _) fun r => ?_
          cases r with
          | ok minted =>
            exact .bind (service_unwritten rfl _) fun _ => .pure _ fun _ _ h => h.view
          | fail reason => exact rejectMfa_alike hcfg ctx claims

theorem record_bypass_iff {entry : AuditEntry} (h : entry.decision = .allow) :
    (exec (auditEnv gw.audit ins tie services)
      (do recordWithTimeoutBestEffort gw.audit entry; pure StageOutcome.bypass) s []).1 =
        (.ok .bypass, s) ↔ ¬ ExhaustedInTime gw.audit ins tie := by
  have hends := @record_rejectsIff gw.audit ins tie services s [] entry rfl
  rw [exec_bind]
  rcases hx : exec (auditEnv gw.audit ins tie services)
    (recordWithTimeoutBestEffort gw.audit entry) s [] with ⟨⟨r, s'⟩, tr'⟩
  rw [hx] at hends
  obtain ⟨hresult, rfl⟩ := hends
  rcases hresult with ⟨rfl, hexh⟩ | ⟨⟨u, rfl⟩, hexh⟩
  · exact iff_of_false (by simp) (not_not.mpr hexh.2)
  · exact iff_of_true rfl fun hin => hexh ⟨h, hin⟩

/-- `AuthOnlyShortCircuitStage` records an ALLOW, so its write may reject. -/
theorem authOnly_iff (hcfg : gw.audit.Valid) (hpath : isAuthOnlyPath s.reqPath = true)
    (hclaims : s.claims ≠ none) :
    (exec (auditEnv gw.audit .succeed tie services) (authOnlyShortCircuitStage gw).run s []).1 =
        (.ok .bypass, s) ∧
      ((exec (auditEnv gw.audit ins tie services) (authOnlyShortCircuitStage gw).run s []).1 =
        (.ok .bypass, s) ↔ ¬ ExhaustedInTime gw.audit ins tie) := by
  obtain ⟨claims, hc⟩ := Option.ne_none_iff_exists'.mp hclaims
  have hstage : ∀ ins, (exec (auditEnv gw.audit ins tie services)
      (authOnlyShortCircuitStage gw).run s []).1 = (.ok .bypass, s) ↔
        ¬ ExhaustedInTime gw.audit ins tie := by
    intro ins
    simp only [authOnlyShortCircuitStage]
    rw [exec_bind, exec_get]
    simp only [hpath, hc, Bool.not_true, Bool.false_eq_true, if_false]
    exact record_bypass_iff rfl
  exact ⟨(hstage .succeed).mpr (not_exhaustedInTime_succeed hcfg), hstage ins⟩

/-- `recordWithTimeoutBestEffort` throws exactly if it is given an ALLOW whose attempts all fail
before the timeout. Of the four stages that call it, three end as they do when the row is written
at once; the AUTH_ONLY stage does exactly if its attempts are not exhausted in time. -/
theorem best_effort_iff (gw : GatewayConfig) (hcfg : gw.audit.Valid) (ins : Inserts) (tie : Bool)
    (services : Env Call Reply) (s : StageContext) :
    let env := auditEnv gw.audit ins tie services
    let written := auditEnv gw.audit .succeed tie services
    let same (stage : PipelineStage) :=
      (exec env stage.run s []).1 = (exec written stage.run s []).1
    (∀ entry, (exec env (recordWithTimeoutBestEffort gw.audit entry) s []).1.1 = .ok () ↔
      ¬ (entry.decision = .allow ∧ ExhaustedInTime gw.audit ins tie)) ∧
    same (authStage gw) ∧ same (revocationStage gw) ∧ same (mfaPromotionStage gw) ∧
    (same (authOnlyShortCircuitStage gw) ↔
      (isAuthOnlyPath s.reqPath = true → s.claims ≠ none →
        ¬ ExhaustedInTime gw.audit ins tie)) := by
  intro env written same
  have hstart : Unwritten ins [] [] := ⟨rfl, rfl, rfl⟩
  refine ⟨fun entry => ?_, (auth_alike hcfg s [] [] hstart).1,
    (revocation_alike hcfg s [] [] hstart).1, (mfaPromotion_alike hcfg s [] [] hstart).1, ?_⟩
  · obtain ⟨h | ⟨⟨u, hu⟩, h⟩, -⟩ := @record_rejectsIff gw.audit ins tie services s [] entry rfl
    · exact iff_of_false (by rw [show (exec env _ s []).1.1 = _ from h.1]; simp) (not_not.mpr h.2)
    · exact iff_of_true hu h
  · by_cases hpath : isAuthOnlyPath s.reqPath = true
    · by_cases hclaims : s.claims = none
      · refine iff_of_true ?_ fun _ h => absurd hclaims h
        simp [same, authOnlyShortCircuitStage, exec_bind, hpath, hclaims]
      · obtain ⟨hwritten, hiff⟩ := @authOnly_iff ins tie services s gw hcfg hpath hclaims
        show _ = (exec written _ s []).1 ↔ _
        rw [show (exec written _ s []).1 = _ from hwritten]
        exact hiff.trans ⟨fun h _ _ => h, fun h => h hpath hclaims⟩
    · refine iff_of_true ?_ fun h => absurd h hpath
      simp [same, authOnlyShortCircuitStage, exec_bind, hpath]

/-! The defaults of `validationSchema`: three attempts, 50 and 100 ms apart. -/

/-- a row for a request with a valid token to `/auth/revoke` -/
def revokeContext : StageContext :=
  { req := sampleRequest, requestId := "r", startedAt := 0, reqPath := "/auth/revoke",
    claims := some sampleClaims }

/-- every attempt fails after `ms` milliseconds -/
def Inserts.fail (ms : ℕ) : Inserts := fun _ => ⟨some ms, .error (.error "SQLITE_BUSY")⟩

theorem sampleConfig_valid : sampleConfig.audit.Valid := ⟨by decide, by decide, by decide⟩

/-- A slow failure: the timer is first, and the request passes. -/
theorem best_effort_iff_slow :
    (exec (auditEnv sampleConfig.audit (.fail 20) true sampleEnv)
      (authOnlyShortCircuitStage sampleConfig).run revokeContext []).1 =
    (exec (auditEnv sampleConfig.audit .succeed true sampleEnv)
      (authOnlyShortCircuitStage sampleConfig).run revokeContext []).1 := by
  refine (best_effort_iff sampleConfig sampleConfig_valid (.fail 20) true sampleEnv
    revokeContext).2.2.2.2.mpr fun _ _ h => ?_
  exact absurd h.2 (by decide)

/-- A quick failure: three attempts in 150 ms, and the request that needs no audit row ends with
the error that the terminal handler answers with 503. -/
theorem best_effort_rejects :
    sampleConfig.audit.Valid ∧
    (exec (auditEnv sampleConfig.audit (.fail 0) true sampleEnv)
      (authOnlyShortCircuitStage sampleConfig).run revokeContext []).1.1 =
        .error (.auditExhausted "Audit WAL exhausted after 3 retries") ∧
    (exec (auditEnv sampleConfig.audit .succeed true sampleEnv)
      (authOnlyShortCircuitStage sampleConfig).run revokeContext []).1.1 = .ok .bypass := by
  refine ⟨sampleConfig_valid, ?_, ?_⟩
  · rfl
  · rfl

end ZTG
