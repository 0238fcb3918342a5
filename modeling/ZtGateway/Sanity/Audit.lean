import ZtGateway.Spec.Audit

/-! What the blocking audit write did: some failed attempts, then either one that
succeeded or as many failures as there are retries. -/

namespace ZTG

open Act

/-- everything but the clock, ids, waiting, the log and the counters -/
def Call.material : Call → Bool
  | .now | .randomUUID | .sleep _ | .timer _ | .metric _ | .log _ => false
  | _ => true

/-- failed attempts at one row -/
def failedInserts (entry : AuditEntry) (fails : List Err) : Trace Call Reply :=
  fails.map fun e => ⟨.auditInsert entry, .error e⟩

variable {env : Env Call Reply} {s : StageContext} {tr : Trace Call Reply} {cfg : AuditConfig}

theorem writeBlockingFrom_uses {allowed : Call → Prop} (entry : AuditEntry) (left : ℕ)
    (hi : allowed (.auditInsert entry)) (hs : ∀ ms, allowed (.sleep ms)) :
    (writeBlockingFrom cfg entry left).Uses allowed := by
  induction left with
  | zero => exact .throw _
  | succ left ih =>
    refine .bind (.call hi _) fun r => ?_
    rcases r with e | _
    · show Uses allowed (if _ then _ else _)
      split_ifs
      · exact .bind (.tell (hs _)) fun _ => ih
      · exact ih
    · exact .pure _

/-- The two ways a blocking write ends. -/
inductive WriteResult (cfg : AuditConfig) (entry : AuditEntry) (left : ℕ) :
    Except Err Unit → Trace Call Reply → Prop
  | written (fails : List Err) (h : fails.length < left) :
      WriteResult cfg entry left (.ok ())
        (failedInserts entry fails ++ [⟨.auditInsert entry, .ok ()⟩])
  | exhausted (fails : List Err) (h : fails.length = left) :
      WriteResult cfg entry left
        (.error (.auditExhausted
          ("Audit WAL exhausted after " ++ toString cfg.walMaxRetries ++ " retries")))
        (failedInserts entry fails)

theorem WriteResult.retry {entry : AuditEntry} {left : ℕ} {r : Except Err Unit}
    {calls : Trace Call Reply} (e : Err) (h : WriteResult cfg entry left r calls) :
    WriteResult cfg entry (left + 1) r (⟨.auditInsert entry, .error e⟩ :: calls) := by
  cases h with
  | written fails h => exact .written (e :: fails) (by simpa using h)
  | exhausted fails h => exact .exhausted (e :: fails) (by simpa using h)

theorem exec_writeBlockingFrom (entry : AuditEntry) (left : ℕ) :
    ∃ r calls tr', exec env (writeBlockingFrom cfg entry left) s tr = ((r, s), tr') ∧
      tr'.only Call.material = tr.only Call.material ++ calls ∧
        WriteResult cfg entry left r calls := by
  induction left generalizing tr with
  | zero => exact ⟨_, [], tr, rfl, by simp, .exhausted [] rfl⟩
  | succ left ih =>
    unfold writeBlockingFrom
    simp only []
    rw [exec_bind, exec_call]
    rcases ho : env tr (.auditInsert entry) with e | _
    · simp only []
      split_ifs
      · rw [exec_bind, exec_tell]
        obtain ⟨r, calls, tr', hx, htr, hr⟩ := @ih (tr ++ [⟨.auditInsert entry, .error e⟩] ++
          [⟨.sleep (cfg.walBaseDelayMs * 2 ^ (cfg.walMaxRetries - (left + 1))), ()⟩])
        exact ⟨r, _, tr', hx, by simp [htr, Call.material], hr.retry e⟩
      · obtain ⟨r, calls, tr', hx, htr, hr⟩ := @ih (tr ++ [⟨.auditInsert entry, .error e⟩])
        exact ⟨r, _, tr', hx, by simp [htr, Call.material], hr.retry e⟩
    · exact ⟨_, _, _, rfl, by simp [Call.material, failedInserts], .written [] (by simp)⟩

theorem recordBestEffort_uses {allowed : Call → Prop} (entry : AuditEntry)
    (hi : allowed (.auditInsert entry)) (hl : ∀ l, allowed (.log l))
    (he : allowed (.emit .auditRecordFailed none)) : (recordBestEffort entry).Uses allowed := by
  refine .bind (.call hi _) fun r => ?_
  rcases r with e | _
  · exact .bind (.tell (hl _)) fun _ => .bind (.tell he) fun _ => .pure _
  · exact .pure _

theorem recordWithTimeoutBestEffort_uses {allowed : Call → Prop} (entry : AuditEntry)
    (hi : allowed (.auditInsert entry)) (hn : ∀ op : Call, op.material = false → allowed op)
    (he : allowed (.emit .auditRecordFailed none)) :
    (recordWithTimeoutBestEffort cfg entry).Uses allowed := by
  refine .bind (.race (hn _ rfl) ?_) fun r => ?_
  · unfold auditLog
    split_ifs
    · exact writeBlockingFrom_uses entry _ hi fun _ => hn _ rfl
    · exact recordBestEffort_uses entry hi (fun _ => hn _ rfl) he
  · cases r with
    | some _ => exact .pure _
    | none => exact .bind (.tell (hn _ rfl)) fun _ => .bind (.tell (hn _ rfl)) fun _ => .pure _

/-- A row that is not an ALLOW is written best-effort: its failure is never thrown. -/
theorem recordWithTimeoutBestEffort_succeeds {entry : AuditEntry} (h : entry.decision ≠ .allow) :
    (recordWithTimeoutBestEffort cfg entry).Succeeds := by
  refine .bind (.race ?_) fun r => ?_
  · rw [auditLog, if_neg h]
    refine .bind (.call id) fun r => ?_
    rcases r with e | _
    · exact .bind (.tell _) fun _ => .bind (.tell _) fun _ => .pure _
    · exact .pure _
  · cases r with
    | some _ => exact .pure _
    | none => exact .bind (.tell _) fun _ => .bind (.tell _) fun _ => .pure _

end ZTG
