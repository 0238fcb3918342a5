import ZtGateway.Spec.Paths
import ZtGateway.Spec.Threat

/-! `PolicyEvaluatorService.evaluate` with the helpers of `policy-subject.util.ts`. The
Casbin enforcer answers or throws anything at each question. -/

namespace ZTG

def buildSubjects (claims : UserClaims) : List String :=
  ("user:" ++ claims.userId) :: claims.roles.map ("role:" ++ ·)

/-- Node hands over ASCII methods only. -/
def normalizeAction (method : String) : String := method.toUpper

namespace PolicyEvaluatorService

/-- the enforcer's answer to the question at one position of the loop -/
abbrev Enforce := ℕ → String → String → String → Except Err Bool

/-- the loop over the subjects, from position `i` on: the first one that matches -/
def matchSubject (enforce : Enforce) (obj act : String) :
    ℕ → List String → Except Err (Option String)
  | _, [] => .ok none
  | i, sub :: rest =>
    match enforce i sub obj act with
    | .error e => .error e
    | .ok true => .ok (some sub)
    | .ok false => matchSubject enforce obj act (i + 1) rest

/-- what one call decided and did: the threat state after its threshold reads, the increments
of the two counters and the `POLICY_DENY` events, in order -/
structure Evaluation where
  decision : PolicyDecision
  threat : ThreatState
  errors : ℕ := 0
  decisions : List Decision := []
  emitted : List ThreatSignalPayload := []

/-- the clock readings of one call, in order -/
structure Readings where
  challenge : ℕ
  deny : ℕ
  ts : ℕ

def denyPayload (req : Request) (user : UserClaims) (resource action : String) (ts : ℕ) :
    ThreatSignalPayload :=
  { type := some .policyDeny, ip := some (extractIp req), userId := some user.userId,
    ja4h := extractJa4h req, ts := ts, resource := some resource, action := some action }

/-- the mapping of step 5 -/
def mapScore (score : JsNum) (challengeT denyT : ℚ) : Option String → PolicyDecision
  | none => ⟨.deny, "casbin_no_match", score, none⟩
  | some sub =>
    if JsNum.le (.num denyT) score then ⟨.deny, "score_above_deny_threshold", score, some sub⟩
    else if JsNum.lt score (.num challengeT) then
      ⟨.allow, "score_below_challenge_threshold", score, some sub⟩
    else ⟨.challenge, "score_in_challenge_band", score, some sub⟩

/-- the score seam: what the request carries, else what the trust service says -/
def scoreOf (evaluateScore : TrustContext → JsNum) (req : Request) (user : UserClaims) : JsNum :=
  req.trustScore.getD (evaluateScore
    { userId := user.userId, deviceId := user.deviceId, ip := extractIp req,
      ja4h := (extractJa4h req).getD "" })

def evaluate (cfg : PolicyConfig) (evaluateScore : TrustContext → JsNum) (enforce : Enforce)
    (threat : ThreatState) (t : Readings) (req : Request) : Evaluation :=
  match req.user with
  | none => { decision := ⟨.deny, "no_user", .num 1, none⟩, threat := threat }
  | some user =>
    let score := scoreOf evaluateScore req user
    let obj := policyObject req
    let act := normalizeAction req.method
    let emitDeny := denyPayload req user obj act t.ts
    match matchSubject enforce obj act 0 (buildSubjects user) with
    | .error _ =>
      { decision := ⟨.deny, "policy_error", score, none⟩, threat := threat, errors := 1,
        decisions := [.deny], emitted := [emitDeny] }
    | .ok matchedSubject =>
      let (challengeT, threat) := threat.currentChallengeThreshold cfg t.challenge
      let (denyT, threat) := threat.currentDenyThreshold cfg t.deny
      let decision := mapScore score challengeT denyT matchedSubject
      { decision := decision, threat := threat, decisions := [decision.decision],
        emitted := if decision.decision = .deny then [emitDeny] else [] }

end PolicyEvaluatorService

end ZTG
