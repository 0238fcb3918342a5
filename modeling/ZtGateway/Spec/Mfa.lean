import ZtGateway.Lib.Run
import ZtGateway.Spec.Totp

/-! `MfaChallenger` over its three tables, and `MfaController.verify`. Each call
brings its own clock readings, random ids and query failures; times are
milliseconds, and the statements of one call are not interleaved with another's. -/

namespace ZTG

structure MfaConfig where
  totpEncryptionKey : String
  challengeTtlMs : ℕ
  tokenTtlMs : ℕ
  rateLimitMax : ℕ
  rateLimitWindowMs : ℕ

/-- HS256 under `MFA_JWT_SECRET`; `verify` gets the current Unix second -/
structure Jose where
  sign : MfaTokenClaims → String
  verify : String → ℕ → Option MfaTokenClaims

/-- what the service is built from -/
structure MfaDeps where
  cfg : MfaConfig
  crypto : Crypto
  jose : Jose

inductive DbError where
  /-- SQLSTATE 23505 -/
  | uniqueViolation
  | other (message : String)
  deriving DecidableEq

structure ChallengeRow where
  challengeId : String
  userId : String
  createdAt : ℕ
  expiresAt : ℕ
  deriving DecidableEq

structure MfaTokenRow where
  jti : String
  userId : String
  fingerprintHash : String
  issuedAt : ℕ
  expiresAt : ℕ
  revokedAt : Option ℕ := none
  deriving DecidableEq

/-- the tables `mfa_challenges`, `mfa_tokens` and `user_secrets`, and the event bus -/
structure MfaState where
  challenges : List ChallengeRow := []
  tokens : List MfaTokenRow := []
  secrets : List (String × String) := []
  emitted : List (EventName × ThreatSignalPayload) := []

/-- how many rows of one user were created within the window that ends at `now` -/
def recentRows (rows : List ChallengeRow) (userId : String) (now window : ℕ) : ℕ :=
  rows.countP fun r => r.userId == userId && now < r.createdAt + window

namespace MfaState

def emit (st : MfaState) (event : EventName) (payload : ThreatSignalPayload) : MfaState :=
  { st with emitted := st.emitted ++ [(event, payload)] }

/-- `MfaChallengeRepository.getChallenge` -/
def getChallenge (st : MfaState) (challengeId : String) : Option ChallengeRow :=
  st.challenges.find? fun r => r.challengeId == challengeId

def recentChallenges (st : MfaState) (userId : String) (now windowMs : ℕ) : ℕ :=
  recentRows st.challenges userId now windowMs

def insertChallengeIfUnderLimit (st : MfaState) (fault : Option String) (now : ℕ)
    (challengeId userId : String) (expiresAt windowMs maxCount : ℕ) :
    Except DbError (Bool × MfaState) :=
  match fault with
  | some m => .error (.other m)
  | none =>
    if st.recentChallenges userId now windowMs < maxCount then
      if (st.getChallenge challengeId).isSome then .error .uniqueViolation
      else .ok (true, { st with challenges := st.challenges ++
        [{ challengeId := challengeId, userId := userId, createdAt := now,
           expiresAt := expiresAt }] })
    else .ok (false, st)

/-- the row of one jti -/
def tokenRow (st : MfaState) (jti : String) : Option MfaTokenRow :=
  st.tokens.find? fun r => r.jti == jti

/-- `tryInsert` of `insertMfaToken` -/
def tryInsert (st : MfaState) (fault : Option String) (row : MfaTokenRow) :
    Except DbError MfaState :=
  match fault with
  | some m => .error (.other m)
  | none =>
    if (st.tokenRow row.jti).isSome then .error .uniqueViolation
    else .ok { st with tokens := st.tokens ++ [row] }

/-- `MfaTokenRepository.revokeMfaToken` -/
def revokeMfaToken (st : MfaState) (now : ℕ) (jti : String) : MfaState :=
  { st with tokens := st.tokens.map fun r =>
      if r.jti = jti then { r with revokedAt := some now } else r }

/-- `UserSecretsRepository.getEncryptedSecret` -/
def getEncryptedSecret (st : MfaState) (userId : String) : Option String := st.secrets.lookup userId

/-- `UserSecretsRepository.save` -/
def saveSecret (st : MfaState) (userId encrypted : String) : MfaState :=
  { st with secrets := (userId, encrypted) :: st.secrets.filter fun p => p.1 != userId }

/-- `UserSecretsRepository.deleteByUserId` -/
def deleteSecret (st : MfaState) (userId : String) : MfaState :=
  { st with secrets := st.secrets.filter fun p => p.1 != userId }

end MfaState

/-- `MfaErrorRecorder.record` -/
def recordInfraError (st : MfaState) (op userId : String) (ts : ℕ) : MfaState :=
  st.emit .mfaInfraError { userId := some userId, op := some op, ts := ts }

structure CreateDraws where
  challengeId : String
  now : ℕ
  /-- `NOW()` of the transaction -/
  rowAt : ℕ
  failedAt : ℕ
  fault : Option String := none
  deriving DecidableEq

def createChallenge (svc : MfaDeps) (st : MfaState) (d : CreateDraws) (userId ip : String)
    (ja4h : Option String) : MfaCreateResult × MfaState :=
  let expiresAt := d.now + svc.cfg.challengeTtlMs
  match st.insertChallengeIfUnderLimit d.fault d.rowAt d.challengeId userId expiresAt
    svc.cfg.rateLimitWindowMs svc.cfg.rateLimitMax with
  | .ok (true, st) => (.ok d.challengeId (.num expiresAt), st)
  | .ok (false, st) =>
    (.fail .rateLimited, st.emit .mfaRateLimited
      { type := some .mfaRateLimited, ip := some ip, userId := some userId, ja4h := ja4h,
        ts := d.failedAt })
  | .error _ => (.fail .internal, recordInfraError st "createChallenge" userId d.failedAt)

/-- the text whose hash binds a token -/
def fingerprintText (userId deviceId ip : String) : String := userId ++ "|" ++ deviceId ++ "|" ++ ip

def fingerprint (c : Crypto) (userId deviceId ip : String) : String :=
  c.sha256Hex (fingerprintText userId deviceId ip)

structure MintDraws where
  /-- `randomUUID()` of the minting call -/
  jti : String
  /-- `randomUUID()` of the retry in `insertMfaToken` -/
  retryId : String
  now : ℕ
  /-- the clock `setIssuedAt()` reads -/
  signedAt : ℕ
  rowAt : ℕ
  insertFault : Option String := none
  retryFault : Option String := none
  deriving DecidableEq

def insertMfaToken (st : MfaState) (d : MintDraws) (jti userId fingerprintHash : String)
    (expiresAt : ℕ) : Except DbError MfaState :=
  let row (id : String) : MfaTokenRow :=
    { jti := id, userId := userId, fingerprintHash := fingerprintHash, issuedAt := d.rowAt,
      expiresAt := expiresAt }
  match st.tryInsert d.insertFault (row jti) with
  | .error .uniqueViolation => st.tryInsert d.retryFault (row d.retryId)
  | r => r

/-- the claims a minting call signs -/
def mintedClaims (svc : MfaDeps) (d : MintDraws) (userId deviceId ip : String) : MfaTokenClaims :=
  { sub := userId, jti := d.jti, deviceId := deviceId,
    fpHash := fingerprint svc.crypto userId deviceId ip, typ := "mfa", iat := d.signedAt / 1000,
    exp := (d.now + svc.cfg.tokenTtlMs) / 1000 }

/-- steps 4 to 6 of `verifyTotp`, which are also the body of `mintDemoMfaToken` -/
def mintMfaToken (svc : MfaDeps) (st : MfaState) (d : MintDraws) (userId deviceId ip : String) :
    Except DbError ((String × ℕ) × MfaState) :=
  let expiresAtMs := d.now + svc.cfg.tokenTtlMs
  let token := svc.jose.sign (mintedClaims svc d userId deviceId ip)
  match insertMfaToken st d d.jti userId (fingerprint svc.crypto userId deviceId ip)
    expiresAtMs with
  | .ok st => .ok ((token, expiresAtMs), st)
  | .error e => .error e

def mintDemoMfaToken (svc : MfaDeps) (st : MfaState) (d : MintDraws) (userId deviceId ip : String) :
    Except DbError (String × ℕ) × MfaState :=
  match mintMfaToken svc st d userId deviceId ip with
  | .ok (r, st) => (.ok r, st)
  | .error e => (.error e, st)

inductive MfaVerifyFailure where
  | expiredChallenge
  | invalidCode
  | unknownUser
  | internal
  deriving DecidableEq

def MfaVerifyFailure.text : MfaVerifyFailure → String
  | .expiredChallenge => "expired_challenge"
  | .invalidCode => "invalid_code"
  | .unknownUser => "unknown_user"
  | .internal => "internal"

inductive MfaVerifyResult where
  | ok (token : String) (expiresAt : ℕ)
  | fail (reason : MfaVerifyFailure)
  deriving DecidableEq

structure VerifyDraws where
  challengeFault : Option String := none
  /-- `Date.now()` of the expiry check -/
  checkedAt : ℕ
  secretFault : Option String := none
  totpAt : ℕ
  mint : MintDraws
  failedAt : ℕ
  deriving DecidableEq

def verifyTotp (svc : MfaDeps) (st : MfaState) (d : VerifyDraws)
    (challengeId totpCode userId ip deviceId : String) (ja4h : Option String) :
    MfaVerifyResult × MfaState :=
  let emitFail (st : MfaState) (reason : MfaVerifyFailure) : MfaVerifyResult × MfaState :=
    (.fail reason, st.emit .mfaFailed
      { type := some .mfaFailed, ip := some ip, userId := some userId, deviceId := some deviceId,
        ja4h := ja4h, reason := some reason.text, ts := d.failedAt })
  let internal : MfaVerifyResult × MfaState :=
    emitFail (recordInfraError st "verifyTotp" userId d.failedAt) .internal
  if d.challengeFault.isSome then internal
  else
    match st.getChallenge challengeId with
    | none => emitFail st .expiredChallenge
    | some challenge =>
      if challenge.expiresAt < d.checkedAt then emitFail st .expiredChallenge
      else if d.secretFault.isSome then internal
      else
        match st.getEncryptedSecret userId with
        | none => emitFail st .unknownUser
        | some encryptedSecret =>
          -- an empty string is falsy, both as the stored value and as the plaintext
          if encryptedSecret = "" then emitFail st .unknownUser
          else
            match aesGcmDecrypt svc.crypto encryptedSecret svc.cfg.totpEncryptionKey with
            | none | some "" =>
              emitFail (st.emit .mfaSecretDecryptFailed { userId := some userId, ts := d.failedAt })
                .unknownUser
            | some plainSecret =>
              match totpVerify svc.crypto d.totpAt totpCode plainSecret with
              | .error _ => internal
              | .ok false => emitFail st .invalidCode
              | .ok true =>
                match mintMfaToken svc st d.mint userId deviceId ip with
                | .error _ => internal
                | .ok ((token, expiresAt), st) => (.ok token expiresAt, st)

def MfaValidateFailure.text : MfaValidateFailure → String
  | .signature => "signature"
  | .expired => "expired"
  | .fingerprintMismatch => "fingerprint_mismatch"
  | .revoked => "revoked"
  | .unknownJti => "unknown_jti"
  | .wrongType => "wrong_type"
  | .internal => "internal"

structure ValidateDraws where
  /-- the clock `jwtVerify` reads -/
  verifiedAt : ℕ
  selectFault : Option String := none
  /-- `NOW()` of the select -/
  readAt : ℕ
  failedAt : ℕ
  deriving DecidableEq

def validateMfaToken (svc : MfaDeps) (st : MfaState) (d : ValidateDraws)
    (token userId deviceId ip : String) (ja4h : Option String) : MfaValidateResult × MfaState :=
  let emitFail (reason : MfaValidateFailure) (jti : Option String) : MfaValidateResult × MfaState :=
    (.fail reason, st.emit .mfaFailed
      { type := some .mfaFailed, ip := some ip, userId := some userId, deviceId := some deviceId,
        ja4h := ja4h, jti := jti, reason := some reason.text, ts := d.failedAt })
  match svc.jose.verify token (d.verifiedAt / 1000) with
  | none => emitFail .signature none
  | some payload =>
    if payload.typ ≠ "mfa" then emitFail .wrongType (some payload.jti)
    else if d.selectFault.isSome then
      (.fail .internal, recordInfraError st "validateMfaToken" userId d.failedAt)
    else
      match st.tokenRow payload.jti with
      | none => emitFail .unknownJti (some payload.jti)
      | some row =>
        if row.revokedAt.isSome then emitFail .revoked (some payload.jti)
        else if row.expiresAt ≤ d.readAt then emitFail .expired (some payload.jti)
        else if fingerprint svc.crypto userId deviceId ip ≠ row.fingerprintHash then
          emitFail .fingerprintMismatch (some payload.jti)
        else (.ok payload, st)

structure VerifyMfaDto where
  challengeId : String
  totpCode : String

/-- `MfaController.verify`: status and body -/
def MfaController.verify (svc : MfaDeps) (st : MfaState) (d : VerifyDraws) (user : UserClaims)
    (req : Request) (dto : VerifyMfaDto) : (ℕ × Json) × MfaState :=
  match verifyTotp svc st d dto.challengeId dto.totpCode user.userId (extractIp req)
    ((extractDeviceId req).getD "") (extractJa4h req) with
  | (.ok token expiresAt, st) =>
    ((200, .obj [("token", .str token), ("expiresAt", .num (.num expiresAt))]), st)
  | (.fail reason, st) =>
    ((401, .obj [("error", .str "mfa_invalid"), ("reason", .str reason.text)]), st)

/-- one call on the service, or a write to its tables by another one -/
inductive MfaOp where
  | createChallenge (d : CreateDraws) (userId ip : String) (ja4h : Option String)
  | verifyTotp (d : VerifyDraws) (challengeId totpCode userId ip deviceId : String)
      (ja4h : Option String)
  | mintDemoMfaToken (d : MintDraws) (userId deviceId ip : String)
  | validateMfaToken (d : ValidateDraws) (token userId deviceId ip : String) (ja4h : Option String)
  | revokeMfaToken (now : ℕ) (jti : String)
  | saveSecret (userId encrypted : String)
  | deleteSecret (userId : String)
  deriving DecidableEq

inductive MfaReply where
  | created (r : MfaCreateResult)
  | verified (r : MfaVerifyResult)
  | minted (r : Except DbError (String × ℕ))
  | validated (r : MfaValidateResult)
  | done
  deriving DecidableEq

def mfaCall (svc : MfaDeps) (st : MfaState) : MfaOp → MfaReply × MfaState
  | .createChallenge d userId ip ja4h =>
    let r := createChallenge svc st d userId ip ja4h
    (.created r.1, r.2)
  | .verifyTotp d challengeId totpCode userId ip deviceId ja4h =>
    let r := verifyTotp svc st d challengeId totpCode userId ip deviceId ja4h
    (.verified r.1, r.2)
  | .mintDemoMfaToken d userId deviceId ip =>
    let r := mintDemoMfaToken svc st d userId deviceId ip
    (.minted r.1, r.2)
  | .validateMfaToken d token userId deviceId ip ja4h =>
    let r := validateMfaToken svc st d token userId deviceId ip ja4h
    (.validated r.1, r.2)
  | .revokeMfaToken now jti => (.done, st.revokeMfaToken now jti)
  | .saveSecret userId encrypted => (.done, st.saveSecret userId encrypted)
  | .deleteSecret userId => (.done, st.deleteSecret userId)

/-- the tables after one call -/
def mfaStep (svc : MfaDeps) (st : MfaState) (op : MfaOp) : MfaState := (mfaCall svc st op).2

/-- the tables and every call so far, with its reply -/
abbrev MfaWorld := Logged MfaState (MfaOp × MfaReply)

def MfaWorld.step (svc : MfaDeps) : MfaWorld → MfaOp → MfaWorld :=
  Logged.next (mfaStep svc) fun st op => (op, (mfaCall svc st op).1)

end ZTG
