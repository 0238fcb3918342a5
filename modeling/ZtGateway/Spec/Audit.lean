import ZtGateway.Spec.Services

/-! `AuditService.log` and `recordWithTimeoutBestEffort`. -/

namespace ZTG

open Act

/-- `AuditService.writeBlocking`, with `left` of its attempts still to make -/
def writeBlockingFrom (cfg : AuditConfig) (entry : AuditEntry) : ℕ → GwM Unit
  | 0 =>
    throw (.auditExhausted
      ("Audit WAL exhausted after " ++ toString cfg.walMaxRetries ++ " retries"))
  | left + 1 => do
    let attempt := cfg.walMaxRetries - (left + 1)
    let r ← call (.auditInsert entry) .ok
    match r with
    | .ok _ => pure ()
    | .error _ =>
      if attempt < cfg.walMaxRetries - 1 then
        tell (.sleep (cfg.walBaseDelayMs * 2 ^ attempt))
        writeBlockingFrom cfg entry left
      else writeBlockingFrom cfg entry left

def writeBlocking (cfg : AuditConfig) (entry : AuditEntry) : GwM Unit :=
  writeBlockingFrom cfg entry cfg.walMaxRetries

def recordBestEffort (entry : AuditEntry) : GwM Unit := do
  let r ← call (.auditInsert entry) .ok
  match r with
  | .ok _ => pure ()
  | .error _ =>
    tell (.log .bestEffortFailed)
    tell (.emit .auditRecordFailed none)
    pure ()

/-- `AuditService.log` -/
def auditLog (cfg : AuditConfig) (entry : AuditEntry) : GwM Unit :=
  if entry.decision = .allow then writeBlocking cfg entry else recordBestEffort entry

/-- A write that throws before the 200 ms are over throws here too. -/
def recordWithTimeoutBestEffort (cfg : AuditConfig) (entry : AuditEntry) : GwM Unit := do
  let result ← race Call.awaited (.timer 200) id (auditLog cfg entry)
  match result with
  | some _ => pure ()
  | none =>
    tell (.metric .incrementAuditFailure)
    tell (.log (.auditTimeout entry.requestId entry.decision))
    pure ()

end ZTG
