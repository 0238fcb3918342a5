import ZtGateway.Lib.Base64
import ZtGateway.Lib.JsMap
import ZtGateway.Lib.JsonText
import ZtGateway.Lib.Run
import ZtGateway.Lib.Utf8
import ZtGateway.Spec.Totp

/-! `HashcashService` over `UsedNonceStore`. Times are milliseconds; the clock may advance
before each reading. -/

namespace ZTG

structure HashcashConfig where
  hmacSecret : String
  challengeTtlMs : ℚ
  usedNonceCapacity : JsNum
  difficultyMin : ℚ
  difficultyMax : ℚ

/-- what the service is built from, and the parts of the platform it calls -/
structure HashcashDeps where
  cfg : HashcashConfig
  /-- HMAC-SHA256 of a message under a key -/
  hmacSha256 : Buffer → Buffer → Buffer
  hmacSha256_length : ∀ key msg, (hmacSha256 key msg).length = 32
  sha256 : Buffer → Buffer
  /-- the characters of neither alphabet that end a Base64 text -/
  base64Ends : Char → Bool
  /-- floating point rounding -/
  fl : ℚ → ℚ
  numbers : JsonText.Numbers
  /-- `String(n)` -/
  numToString : JsNum → String
  /-- what `solveSeconds.observe` throws -/
  observe : JsNum → Option Err

/-- `Math.floor(Date.now() / 1000)` -/
def unixSeconds (now : ℕ) : ℕ := now / 1000

def HashcashDeps.ttlSec (svc : HashcashDeps) : ℕ := ⌊svc.fl (svc.cfg.challengeTtlMs / 1000)⌋.toNat

/-- `min + ((score - 0.7) * span) / 0.2`, rounded; an infinite score keeps or turns its sign -/
def rawDifficulty (fl : ℚ → ℚ) (score : JsNum) (min span : ℚ) : JsNum :=
  match score with
  | .nan => .nan
  | .num q =>
    .num ⌊fl (min + fl (fl (fl (q - fl (7 / 10)) * span) / fl (1 / 5))) + 1 / 2⌋
  | .posInf => if span = 0 then .nan else if 0 < span then .posInf else .negInf
  | .negInf => if span = 0 then .nan else if 0 < span then .negInf else .posInf

def difficultyForScore (fl : ℚ → ℚ) (score : JsNum) (min max : ℚ) : JsNum :=
  let raw := rawDifficulty fl score min (fl (max - min))
  if raw.lt (.num min) then .num min
  else if (JsNum.num max).lt raw then .num max
  else raw

/-- the shifts of a byte up to its first set bit; a byte other than 0 takes fewer than `fuel` = 8 -/
def shiftsToBit7 : (fuel : ℕ) → ℕ → ℕ
  | 0, _ => 0
  | fuel + 1, b => if b / 0x80 % 2 = 0 then shiftsToBit7 fuel (b * 2) + 1 else 0

def countLeadingZeroBits : Buffer → ℕ
  | [] => 0
  | byte :: rest =>
    if byte = 0 then 8 + countLeadingZeroBits rest else shiftsToBit7 8 byte.toNat

def hashSolution (svc : HashcashDeps) (nonce solution : String) : Buffer :=
  svc.sha256 (Utf8.encode (nonce.toList ++ solution.toList))

namespace UsedNonceStore

/-- nonce to expiry, in Unix seconds -/
abbrev Store := JsMap String JsNum

def has (store : Store) (now : ℕ) (nonce : String) : Bool × Store :=
  match store.get nonce with
  | none => (false, store)
  | some exp =>
    if exp.le (.num (unixSeconds now)) then (false, store.delete nonce) else (true, store)

/-- the eviction of `add` -/
def makeRoom (store : Store) (capacity : JsNum) : Store :=
  if capacity.le (.num store.size) then
    match store.oldest with
    | some oldest => store.delete oldest
    | none => store
  else store

def add (store : Store) (capacity : JsNum) (nonce : String) (expiresAt : JsNum) : Store :=
  (makeRoom store capacity).set nonce expiresAt

end UsedNonceStore

inductive HashcashOutcome where
  | issued
  | solved
  | failed
  deriving DecidableEq

/-- one call of `issueChallenge`, with the bytes it signed -/
structure Issue where
  userId : String
  deviceId : String
  difficulty : JsNum
  iat : ℕ
  payload : Buffer
  nonce : String

/-- the clock, the store and the metrics; `issued` and `accepted` record what happened: every
challenge, and every nonce that passed all checks and was marked as used -/
structure HashcashState where
  now : ℕ
  store : UsedNonceStore.Store := .empty
  total : List (HashcashOutcome × String) := []
  solveSeconds : List JsNum := []
  issued : List Issue := []
  accepted : List String := []

namespace HashcashState

def advance (st : HashcashState) (dt : ℕ) : HashcashState := { st with now := st.now + dt }

def inc (st : HashcashState) (outcome : HashcashOutcome) (difficulty : String) : HashcashState :=
  { st with total := st.total ++ [(outcome, difficulty)] }

end HashcashState

/-- the text of a `NoncePayload`, its fields in the order of the literal -/
def payloadText (svc : HashcashDeps) (exp iat : ℕ) (diff : JsNum) (sub dev : String) : List Char :=
  JsonText.stringify svc.numbers
    [("v".toList, .num (.num 1)), ("exp".toList, .num (.num exp)), ("diff".toList, .num diff),
      ("sub".toList, .str sub.toList), ("dev".toList, .str dev.toList),
      ("iat".toList, .num (.num iat))]

/-- HMAC-SHA256 under the service's secret -/
def HashcashDeps.mac (svc : HashcashDeps) (payloadBytes : Buffer) : Buffer :=
  svc.hmacSha256 (Utf8.encode svc.cfg.hmacSecret.toList) payloadBytes

def nonceText (payloadBytes mac : Buffer) : List Char :=
  Base64.encode Base64.url payloadBytes ++ '.' :: Base64.encode Base64.url mac

/-- what `issueChallenge` makes at `now` -/
def newIssue (svc : HashcashDeps) (now : ℕ) (userId deviceId : String) (score : JsNum) : Issue :=
  let difficulty := difficultyForScore svc.fl score svc.cfg.difficultyMin svc.cfg.difficultyMax
  let iat := unixSeconds now
  let payload :=
    Utf8.encode (payloadText svc (iat + svc.ttlSec) iat difficulty userId deviceId)
  { userId := userId, deviceId := deviceId, difficulty := difficulty, iat := iat,
    payload := payload, nonce := String.ofList (nonceText payload (svc.mac payload)) }

def issueChallenge (svc : HashcashDeps) (st : HashcashState) (dt : ℕ) (userId deviceId : String)
    (score : JsNum) : IssuedChallenge × HashcashState :=
  let st := st.advance dt
  let issue := newIssue svc st.now userId deviceId score
  ({ nonce := issue.nonce, difficulty := issue.difficulty,
     expiresAt := .num ((issue.iat + svc.ttlSec : ℕ) : ℚ) },
    { st.inc .issued (svc.numToString issue.difficulty) with issued := st.issued ++ [issue] })

/-- the text before and after the last dot, neither of them empty -/
def splitNonce (nonce : List Char) : Option (List Char × List Char) :=
  let mac := (nonce.reverse.takeWhile (· ≠ '.')).reverse
  match nonce.reverse.dropWhile (· ≠ '.') with
  | [] => none
  | _ :: rest => if rest = [] ∨ mac = [] then none else some (rest.reverse, mac)

/-- steps 2 and 3: the structural parse and the HMAC check, with the payload bytes -/
def openNonce (svc : HashcashDeps) (nonce : String) : Except HashcashFailure Buffer :=
  match splitNonce nonce.toList with
  | none => .error .malformed
  | some (payloadB64, macB64) =>
    let payloadBytes := Base64.decode svc.base64Ends payloadB64
    if Base64.decode svc.base64Ends macB64 = svc.mac payloadBytes then .ok payloadBytes
    else .error .invalidHmac

/-- the fields `verifySolution` looks at; texts are UTF-16 -/
structure NoncePayload where
  exp : JsNum
  diff : JsNum
  iat : JsNum
  sub : List ℕ
  dev : List ℕ
  deriving DecidableEq

/-- step 4, `none` where it throws -/
def readPayload (svc : HashcashDeps) (payloadBytes : Buffer) : Option NoncePayload :=
  match JsonText.parse svc.numbers (Utf8.decode payloadBytes) with
  | none => none
  | some v =>
    match v.get "exp".toList, v.get "diff".toList, v.get "iat".toList, v.get "sub".toList,
        v.get "dev".toList with
    | some (.num exp), some (.num diff), some (.num iat), some (.str sub), some (.str dev) =>
      some { exp := exp, diff := diff, iat := iat, sub := sub, dev := dev }
    | _, _, _, _, _ => none

/-- steps 2 to 4 -/
def payloadOf (svc : HashcashDeps) (nonce : String) : Except HashcashFailure NoncePayload :=
  match openNonce svc nonce with
  | .error reason => .error reason
  | .ok payloadBytes =>
    match readPayload svc payloadBytes with
    | none => .error .malformed
    | some payload => .ok payload

/-- `nowSec - payload.iat` -/
def solveTime (fl : ℚ → ℚ) (nowSec : ℕ) : JsNum → JsNum
  | .nan => .nan
  | .num iat => .num (fl (nowSec - iat))
  | .posInf => .negInf
  | .negInf => .posInf

/-- `===` on numbers -/
def JsNum.strictEq (a b : JsNum) : Bool := a ≠ .nan && a = b

/-- how far the clock advances before the expiry check and before the store's reading -/
structure VerifyTicks where
  expiry : ℕ := 0
  store : ℕ := 0
  deriving DecidableEq

/-- step 9 -/
def markUsed (svc : HashcashDeps) (st : HashcashState) (nonce : String) (payload : NoncePayload)
    (nowSec : ℕ) : Except Err VerifyResult × HashcashState :=
  let st := { st with
    store := UsedNonceStore.add st.store svc.cfg.usedNonceCapacity nonce payload.exp,
    accepted := st.accepted ++ [nonce] }
  let st := st.inc .solved (svc.numToString payload.diff)
  let seconds := solveTime svc.fl nowSec payload.iat
  match svc.observe seconds with
  | some err => (.error err, st)
  | none => (.ok (.ok payload.iat), { st with solveSeconds := st.solveSeconds ++ [seconds] })

/-- steps 4b to 9, on a payload that was read -/
def verifyPayload (svc : HashcashDeps) (st : HashcashState) (t : VerifyTicks)
    (nonce solution : String) (liveScore : JsNum) (expectedUserId expectedDeviceId : String)
    (payload : NoncePayload) : Except Err VerifyResult × HashcashState :=
  let diffLabel := svc.numToString payload.diff
  if payload.sub ≠ JsonText.units expectedUserId.toList ∨
      payload.dev ≠ JsonText.units expectedDeviceId.toList then
    (.ok (.fail .identityMismatch), st.inc .failed diffLabel)
  else
    let st := st.advance t.expiry
    let nowSec := unixSeconds st.now
    if payload.exp.le (.num nowSec) then (.ok (.fail .expired), st.inc .failed diffLabel)
    else
      let expectedDiff :=
        difficultyForScore svc.fl liveScore svc.cfg.difficultyMin svc.cfg.difficultyMax
      if payload.diff.strictEq expectedDiff = false then
        (.ok (.fail .difficultyMismatch), st.inc .failed diffLabel)
      else
        let st := st.advance t.store
        match UsedNonceStore.has st.store st.now nonce with
        | (true, store) => (.ok (.fail .replay), { st with store := store }.inc .failed diffLabel)
        | (false, store) =>
          let st := { st with store := store }
          if (JsNum.num (countLeadingZeroBits (hashSolution svc nonce solution))).lt payload.diff
          then (.ok (.fail .insufficientZeros), st.inc .failed diffLabel)
          else markUsed svc st nonce payload nowSec

def verifySolution (svc : HashcashDeps) (st : HashcashState) (t : VerifyTicks)
    (nonce solution : String) (liveScore : JsNum) (expectedUserId expectedDeviceId : String) :
    Except Err VerifyResult × HashcashState :=
  -- `length` counts UTF-16 units
  let length := (JsonText.units solution.toList).length
  if length < 1 ∨ 256 < length then (.ok (.fail .lengthBound), st.inc .failed "0")
  else
    match payloadOf svc nonce with
    | .error reason => (.ok (.fail reason), st.inc .failed "0")
    | .ok payload =>
      verifyPayload svc st t nonce solution liveScore expectedUserId expectedDeviceId payload

inductive HashcashOp where
  | issue (dt : ℕ) (userId deviceId : String) (score : JsNum)
  | verify (t : VerifyTicks) (nonce solution : String) (liveScore : JsNum)
      (userId deviceId : String)

def hashcashStep (svc : HashcashDeps) (st : HashcashState) : HashcashOp → HashcashState
  | .issue dt userId deviceId score => (issueChallenge svc st dt userId deviceId score).2
  | .verify t nonce solution liveScore userId deviceId =>
    (verifySolution svc st t nonce solution liveScore userId deviceId).2

end ZTG
