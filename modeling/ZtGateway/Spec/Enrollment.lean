import ZtGateway.Lib.JsMap
import ZtGateway.Lib.Pool
import ZtGateway.Spec.Mfa

/-! `MfaEnroller` over `PendingEnrollmentStore` and `user_secrets`, cut at its awaits: a
call runs up to its query, the database answers, the call resumes. Any number of calls
interleave between these points. The clock may advance before each reading; times are
milliseconds. -/

namespace ZTG

structure PendingEnrollment where
  userId : String
  secret : String
  expiresAt : ℕ
  attempts : ℕ := 0
  deriving DecidableEq

namespace PendingStore

abbrev Store := JsMap String PendingEnrollment

/-- `incrementAttempts`: the new count, 0 if the entry is missing -/
def incrementAttempts (st : Store) (enrollmentId : String) : ℕ × Store :=
  match st.get enrollmentId with
  | none => (0, st)
  | some entry =>
    let entry := { entry with attempts := entry.attempts + 1 }
    (entry.attempts, st.set enrollmentId entry)

/-- `get`, with its eviction -/
def get (st : Store) (now : ℕ) (enrollmentId : String) : Option PendingEnrollment × Store :=
  match JsMap.get st enrollmentId with
  | none => (none, st)
  | some entry =>
    if entry.expiresAt ≤ now then (none, st.delete enrollmentId) else (some entry, st)

/-- the loop of `hasPendingForUser` over the entries still to be visited -/
def scan (now : ℕ) (userId : String) : List (String × PendingEnrollment) → Store → Bool × Store
  | [], st => (false, st)
  | (id, entry) :: rest, st =>
    if entry.expiresAt ≤ now then scan now userId rest (st.delete id)
    else if entry.userId = userId then (true, st)
    else scan now userId rest st

def hasPendingForUser (st : Store) (now : ℕ) (userId : String) : Bool × Store :=
  scan now userId st.entries st

end PendingStore

structure EnrollConfig where
  encryptionKey : String
  issuerName : String
  enrollPendingTtlMs : ℕ

structure EnrollDeps where
  cfg : EnrollConfig
  crypto : Cipher
  encodeURIComponent : String → String

def ENROLL_MAX_ATTEMPTS : ℕ := 5

/-- one call, with its arguments -/
inductive EnrollCall where
  | create (userId : String) (userEmail : Option String)
  | confirm (enrollmentId totpCode userId : String) (ip ja4h : Option String)
  | delete (userId : String)

def EnrollCall.userId : EnrollCall → String
  | .create userId _ => userId
  | .confirm _ _ userId _ _ => userId
  | .delete userId => userId

inductive EnrollResult where
  | enrolled (enrollmentId otpauthUri : String)
  | alreadyEnrolled
  | confirmed
  | expiredEnrollment
  | userMismatch
  | invalidTotp
  | deleted (deleted : Bool)
  | internal
  deriving DecidableEq

/-- where a call is; the failed phases are those whose query threw -/
inductive EnrollPhase where
  | idle
  | reading
  | read (existing : Option String)
  | readFailed
  /-- the code verified against `entry`, and `encrypted` is on its way to the table -/
  | saving (entry : PendingEnrollment) (encrypted : String)
  | saved
  | saveFailed
  | deleting
  | deleted (deleted : Bool)
  | deleteFailed
  | returned (result : EnrollResult)
  deriving DecidableEq

/-- the entry whose secret a code was compared with, when, and whether the code verified -/
structure Comparison where
  entry : PendingEnrollment
  now : ℕ
  ok : Bool

/-- what `confirmEnrollment` did before its await, with the events it emitted -/
structure Attempt (ι : Type) where
  call : ι
  enrollmentId : String
  compared : Option Comparison := none
  emitted : List (EventName × ThreatSignalPayload) := []

/-- the clock, the store, the table and the bus; `issued` and `attempts` record what happened:
every pending entry ever made, and every attempt to confirm one -/
structure EnrollState (ι : Type) where
  now : ℕ
  pending : JsMap String PendingEnrollment := .empty
  mfa : MfaState := {}
  issued : List (String × PendingEnrollment) := []
  attempts : List (Attempt ι) := []

/-- how far the clock advances before each reading of a confirmation -/
structure Ticks where
  get : ℕ := 0
  verify : ℕ := 0
  failed : ℕ := 0
  limited : ℕ := 0
  deriving DecidableEq

inductive QueryOutcome where
  | done
  | failed
  /-- the statement took effect, its answer did not arrive -/
  | lost
  deriving DecidableEq

inductive EnrollStep where
  /-- the call up to its query -/
  | begin_ (t : Ticks) (iv : Iv)
  | query (outcome : QueryOutcome)
  /-- the rest of the call; the draws are those of `createEnrollment` -/
  | resume (dt : ℕ) (enrollmentId : String) (bytes : Buffer)
  | tick (dt : ℕ)
  deriving DecidableEq

variable {ι : Type}

namespace EnrollState

def advance (st : EnrollState ι) (dt : ℕ) : EnrollState ι := { st with now := st.now + dt }

def emit (st : EnrollState ι) (event : EventName) (payload : ThreatSignalPayload) :
    EnrollState ι := { st with mfa := st.mfa.emit event payload }

/-- the attempt is over: its events are on the bus -/
def attempt (st : EnrollState ι) (a : Attempt ι) : EnrollState ι :=
  { st with attempts := st.attempts ++ [a],
            mfa := { st.mfa with emitted := st.mfa.emitted ++ a.emitted } }

end EnrollState

/-- `errorRecorder.record` and the `internal` result -/
def failInternal (st : EnrollState ι) (op userId : String) : EnrollPhase × EnrollState ι :=
  (.returned .internal, { st with mfa := recordInfraError st.mfa op userId st.now })

def createBegin (userId : String) (t : Ticks) (st : EnrollState ι) : EnrollPhase × EnrollState ι :=
  let st := st.advance t.get
  let (found, pending) := PendingStore.hasPendingForUser st.pending st.now userId
  (if found then .returned .alreadyEnrolled else .reading, { st with pending := pending })

def otpauthUri (svc : EnrollDeps) (label secret : String) : String :=
  "otpauth://totp/" ++ svc.encodeURIComponent svc.cfg.issuerName ++ ":" ++
    svc.encodeURIComponent label ++ "?secret=" ++ secret ++ "&issuer=" ++
    svc.encodeURIComponent svc.cfg.issuerName ++ "&algorithm=SHA1&digits=6&period=30"

/-- the entry `PendingEnrollmentStore.set` makes -/
def newEntry (svc : EnrollDeps) (userId secret : String) (now : ℕ) : PendingEnrollment :=
  { userId := userId, secret := secret, expiresAt := now + svc.cfg.enrollPendingTtlMs }

def createResume (svc : EnrollDeps) (userId : String) (userEmail existing : Option String)
    (dt : ℕ) (enrollmentId : String) (bytes : Buffer) (st : EnrollState ι) :
    EnrollPhase × EnrollState ι :=
  -- an empty string would be falsy
  if existing.getD "" ≠ "" then (.returned .alreadyEnrolled, st)
  else
    let secret := base32Encode bytes
    let st := st.advance dt
    let entry := newEntry svc userId secret st.now
    (.returned (.enrolled enrollmentId (otpauthUri svc (userEmail.getD userId) secret)),
      { st with pending := st.pending.set enrollmentId entry,
                issued := st.issued ++ [(enrollmentId, entry)] })

/-- the payload of both events of a failed confirmation -/
def enrollPayload (event : EventName) (userId reason : String) (ts : ℕ) (ip ja4h : Option String) :
    ThreatSignalPayload :=
  { type := some event, userId := some userId, reason := some reason, ts := ts, ip := ip,
    ja4h := ja4h }

/-- the branch of a wrong code -/
def wrongCode (i : ι) (enrollmentId userId : String) (ip ja4h : Option String) (t : Ticks)
    (compared : Comparison) (st : EnrollState ι) : EnrollPhase × EnrollState ι :=
  let st := st.advance t.failed
  let failed := (EventName.mfaFailed,
    enrollPayload .mfaFailed userId "invalid_totp_enrollment" st.now ip ja4h)
  let (attempts, pending) := PendingStore.incrementAttempts st.pending enrollmentId
  let st := { st with pending := pending }
  if ENROLL_MAX_ATTEMPTS ≤ attempts then
    let st := { st.advance t.limited with pending := st.pending.delete enrollmentId }
    let limited := (EventName.mfaRateLimited,
      enrollPayload .mfaRateLimited userId "enrollment_attempts_exhausted" st.now ip ja4h)
    (.returned .invalidTotp, st.attempt
      { call := i, enrollmentId := enrollmentId, compared := some compared,
        emitted := [failed, limited] })
  else
    (.returned .invalidTotp, st.attempt
      { call := i, enrollmentId := enrollmentId, compared := some compared,
        emitted := [failed] })

/-- the `catch` of a confirmation -/
def confirmThrew (i : ι) (enrollmentId userId : String) (t : Ticks) (compared : Option Comparison)
    (st : EnrollState ι) : EnrollPhase × EnrollState ι :=
  let st := st.advance t.failed
  (.returned .internal, st.attempt
    { call := i, enrollmentId := enrollmentId, compared := compared,
      emitted := [(.mfaInfraError,
        { userId := some userId, op := some "confirmEnrollment", ts := st.now })] })

def confirmBegin (svc : EnrollDeps) (i : ι) (enrollmentId totpCode userId : String)
    (ip ja4h : Option String) (t : Ticks) (iv : Iv) (st : EnrollState ι) :
    EnrollPhase × EnrollState ι :=
  let st := st.advance t.get
  match PendingStore.get st.pending st.now enrollmentId with
  | (none, pending) =>
    (.returned .expiredEnrollment, { st with pending := pending }.attempt
      { call := i, enrollmentId := enrollmentId })
  | (some entry, _) =>
    if entry.userId ≠ userId then
      (.returned .userMismatch, st.attempt { call := i, enrollmentId := enrollmentId })
    else
      let st := st.advance t.verify
      match totpVerify svc.crypto.toCrypto st.now totpCode entry.secret with
      | .error _ => confirmThrew i enrollmentId userId t none st
      | .ok false => wrongCode i enrollmentId userId ip ja4h t ⟨entry, st.now, false⟩ st
      | .ok true =>
        match aesGcmEncrypt svc.crypto entry.secret svc.cfg.encryptionKey iv with
        | none => confirmThrew i enrollmentId userId t (some ⟨entry, st.now, true⟩) st
        | some encrypted =>
          (.saving entry encrypted, st.attempt
            { call := i, enrollmentId := enrollmentId, compared := some ⟨entry, st.now, true⟩ })

def confirmResume (enrollmentId userId : String) (dt : ℕ) (st : EnrollState ι) :
    EnrollPhase × EnrollState ι :=
  let st := { st.advance dt with pending := st.pending.delete enrollmentId }
  (.returned .confirmed, st.emit .mfaEnrollmentConfirmed
    { type := some .mfaEnrollmentConfirmed, userId := some userId, ts := st.now })

def deleteResume (userId : String) (deleted : Bool) (dt : ℕ) (st : EnrollState ι) :
    EnrollPhase × EnrollState ι :=
  let st := st.advance dt
  (.returned (.deleted deleted), st.emit .mfaEnrollmentReset
    { type := some .mfaEnrollmentReset, userId := some userId, deleted := some deleted,
      ts := st.now })

/-- `secretsRepo.save` and `deleteByUserId` take effect unless the query failed -/
def QueryOutcome.apply (outcome : QueryOutcome) (st : EnrollState ι) (mfa : MfaState) :
    EnrollState ι :=
  if outcome = .failed then st else { st with mfa := mfa }

/-- one segment of call `i` -/
def enrollAct (svc : EnrollDeps) (calls : ι → EnrollCall) (i : ι) (m : EnrollStep)
    (l : EnrollPhase) (st : EnrollState ι) : Option (EnrollPhase × EnrollState ι) :=
  match m, l, calls i with
  | .tick dt, l, _ => some (l, st.advance dt)
  | .begin_ t _, .idle, .create userId _ => some (createBegin userId t st)
  | .query .done, .reading, .create userId _ =>
    some (.read (st.mfa.getEncryptedSecret userId), st)
  | .query _, .reading, .create _ _ => some (.readFailed, st)
  | .resume dt enrollmentId bytes, .read existing, .create userId userEmail =>
    some (createResume svc userId userEmail existing dt enrollmentId bytes st)
  | .resume dt _ _, .readFailed, .create userId _ =>
    some (failInternal (st.advance dt) "createEnrollment" userId)
  | .begin_ t iv, .idle, .confirm enrollmentId totpCode userId ip ja4h =>
    some (confirmBegin svc i enrollmentId totpCode userId ip ja4h t iv st)
  | .query outcome, .saving _ encrypted, .confirm _ _ userId _ _ =>
    some (if outcome = .done then .saved else .saveFailed,
      outcome.apply st (st.mfa.saveSecret userId encrypted))
  | .resume dt _ _, .saved, .confirm enrollmentId _ userId _ _ =>
    some (confirmResume enrollmentId userId dt st)
  | .resume dt _ _, .saveFailed, .confirm _ _ userId _ _ =>
    some (failInternal (st.advance dt) "confirmEnrollment" userId)
  | .begin_ _ _, .idle, .delete _ => some (.deleting, st)
  | .query outcome, .deleting, .delete userId =>
    some (if outcome = .done then .deleted (st.mfa.getEncryptedSecret userId).isSome
      else .deleteFailed, outcome.apply st (st.mfa.deleteSecret userId))
  | .resume dt _ _, .deleted deleted, .delete userId =>
    some (deleteResume userId deleted dt st)
  | .resume dt _ _, .deleteFailed, .delete userId =>
    some (failInternal (st.advance dt) "deleteEnrollment" userId)
  | _, _, _ => none

abbrev EnrollPool (ι : Type) := Pool ι EnrollPhase (EnrollState ι)

def enrollStep [DecidableEq ι] (svc : EnrollDeps) (calls : ι → EnrollCall) :
    EnrollPool ι → ι × EnrollStep → EnrollPool ι := Pool.step (enrollAct svc calls)

/-- the process starts: nothing is pending, the table is as the last one left it -/
def enrollStart (now : ℕ) (secrets : List (String × String)) : EnrollPool ι :=
  ⟨{ now := now, mfa := { secrets := secrets } }, fun _ => .idle⟩

/-- `MfaModule`: both services are built from one `MFA_CONFIG` -/
structure MfaModule where
  cfg : MfaConfig
  issuerName : String
  enrollPendingTtlMs : ℕ
  crypto : Cipher
  jose : Jose
  encodeURIComponent : String → String
  /-- what the boot checks of `MFA_TOTP_ENCRYPTION_KEY` -/
  key_length : (crypto.base64Decode cfg.totpEncryptionKey).length = 32

def MfaModule.enroller (m : MfaModule) : EnrollDeps where
  cfg := { encryptionKey := m.cfg.totpEncryptionKey, issuerName := m.issuerName,
           enrollPendingTtlMs := m.enrollPendingTtlMs }
  crypto := m.crypto
  encodeURIComponent := m.encodeURIComponent

def MfaModule.challenger (m : MfaModule) : MfaDeps where
  cfg := m.cfg
  crypto := m.crypto.toCrypto
  jose := m.jose

end ZTG
