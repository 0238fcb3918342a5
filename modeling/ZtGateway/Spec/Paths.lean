import ZtGateway.Spec.Request

/-! The path sets the pipeline dispatches on, and the path the policy is asked about. -/

namespace ZTG

def PUBLIC_PATHS : List String := ["/health", "/metrics"]

def AUTH_ONLY_EXACT : List String :=
  ["/auth/revoke", "/mfa/initiate", "/mfa/verify", "/mfa/enroll", "/mfa/enroll/confirm",
    "/audit/logs", "/demo/mfa-token"]

def AUTH_ONLY_PREFIXES : List String := ["/mfa/admin/enrollment", "/policy/admin"]

def HONEYPOT_PATHS : List String :=
  ["/wp-login.php", "/.env", "/admin/config.json", "/api/v1/debug", "/graphql/introspection",
    "/actuator/health", "/api/v1/internal/keys"]

def isAuthOnlyPath (p : String) : Bool :=
  AUTH_ONLY_EXACT.contains p ||
    AUTH_ONLY_PREFIXES.any fun pre => p == pre || (pre ++ "/").toList.isPrefixOf p.toList

/-- no query and no trailing slash; the root keeps its slash -/
def normalizeResource (rawPath : String) : String :=
  let p := (beforeQuery rawPath).toList
  if 1 < p.length && p.getLast? == some '/' then String.ofList p.dropLast else String.ofList p

/-- `obj` of `PolicyEvaluatorService.evaluate` -/
def policyObject (req : Request) : String := normalizeResource (req.originalUrl.getD req.path)

end ZTG
