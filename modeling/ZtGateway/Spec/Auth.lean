import ZtGateway.Spec.Services

/-! `AuthService`: bearer tokens, the key that goes with their algorithm, and the claims of a
verified one. The calls into `jose` are calls of the run; the service keeps the JWKS function
between its runs. -/

namespace ZTG

open Act

/-- what `jose` throws, as far as `mapJoseError` tells errors apart -/
inductive JoseError where
  | JWTExpired
  | JWSSignatureVerificationFailed
  | JOSEAlgNotAllowed
  | JWTClaimValidationFailed (claim : String)
  | JWKSNoMatchingKey
  | JWKSTimeout
  /-- any other error, also one that is not `jose`'s -/
  | other

/-- `AuthConfig` -/
structure AuthConfig where
  jwtSecret : String
  jwtPublicKey : Option String
  jwksUri : Option String
  jwtIssuer : Option String
  jwtAudience : Option String

/-- the options of `jwtVerify` -/
structure VerifyOptions where
  algorithms : List String
  requiredClaims : List String
  issuer : Option String
  audience : Option String
  deriving DecidableEq

/-- what `jwtVerify` is given to verify with -/
inductive VerificationKey where
  /-- `new TextEncoder().encode(secret)` -/
  | secret (secret : String)
  /-- the answer of `importSPKI` -/
  | spki (pem alg : String)
  /-- the answer of `createRemoteJWKSet` -/
  | jwks (uri : String)
  deriving DecidableEq

/-- `alg` of the protected header, when it is a string -/
structure ProtectedHeader where
  alg : Option String

/-- `JWTPayload`: a JSON object, with nothing known of its members -/
abbrev JWTPayload := List (String × Json)

inductive JoseCall where
  | decodeProtectedHeader (token : String)
  | importSPKI (pem alg : String)
  /-- with the `new URL` of its argument -/
  | createRemoteJWKSet (uri : String)
  | jwtVerify (token : String) (key : VerificationKey) (options : VerifyOptions)

@[reducible] def JoseReply : JoseCall → Type
  | .decodeProtectedHeader _ => Except JoseError ProtectedHeader
  | .importSPKI .. => Except JoseError Unit
  | .createRemoteJWKSet _ => Except JoseError Unit
  | .jwtVerify .. => Except JoseError JWTPayload

/-- what is thrown inside the service -/
inductive AuthError where
  | jose (e : JoseError)
  | unauthorized (message : String)

/-- `UserClaims` as `extractClaims` fills it: only `roles` and `deviceId` are checked, the other
fields are whatever the payload has there -/
structure ExtractedClaims where
  userId : Option Json
  roles : List String
  jti : Option Json
  exp : Option Json
  email : Option Json
  sessionId : Option Json
  deviceId : String

inductive AuthAnswer where
  | ok (claims : ExtractedClaims)
  | invalid (reason : AuthInvalidReason) (message : Option String)

/-- `AuthService`, with the JWKS function once it has been made from the configured URI -/
structure AuthService (cfg : AuthConfig) where
  jwksFunction : Option { uri : String // cfg.jwksUri = some uri } := none

/-- a string that JavaScript takes for true -/
def truthy (x : Option String) : Option String := x.filter (· ≠ "")

theorem eq_of_truthy {x : Option String} {s : String} (h : truthy x = some s) : x = some s :=
  (Option.filter_eq_some_iff.mp h).1

namespace AuthService

variable (cfg : AuthConfig)

abbrev M := Act JoseCall JoseReply (AuthService cfg) AuthError

def fromJose {α : Type} (r : Except JoseError α) : Except AuthError α := r.mapError .jose

/-- the message of the `UnauthorizedException` that `mapJoseError` throws -/
def mapJoseError : AuthError → String
  | .jose .JWTExpired => "Token has expired"
  | .jose .JWSSignatureVerificationFailed => "Invalid token signature"
  | .jose .JOSEAlgNotAllowed => "Algorithm not allowed"
  | .jose (.JWTClaimValidationFailed claim) => "Invalid claim: " ++ claim
  | .jose .JWKSNoMatchingKey => "No matching key found in JWKS"
  | .jose .JWKSTimeout => "JWKS endpoint timeout"
  | .unauthorized message => message
  | .jose .other => "Invalid token"

def verifyOptions : VerifyOptions where
  algorithms := ["HS256", "RS256", "ES256"]
  requiredClaims := ["jti", "sub"]
  issuer := truthy cfg.jwtIssuer
  audience := truthy cfg.jwtAudience

def verifyAsymmetric (token alg : String) : M cfg JWTPayload :=
  match truthy cfg.jwtPublicKey with
  | some publicKeyPem => do
    call (.importSPKI publicKeyPem alg) fromJose
    call (.jwtVerify token (.spki publicKeyPem alg) (verifyOptions cfg)) fromJose
  | none =>
    match h : truthy cfg.jwksUri with
    | some jwksUri => do
      let service ← get
      match service.jwksFunction with
      | none =>
        call (.createRemoteJWKSet jwksUri) fromJose
        modify fun s => { s with jwksFunction := some ⟨jwksUri, eq_of_truthy h⟩ }
        call (.jwtVerify token (.jwks jwksUri) (verifyOptions cfg)) fromJose
      | some uri => call (.jwtVerify token (.jwks uri) (verifyOptions cfg)) fromJose
    | none => throw (.unauthorized "No key material for asymmetric algorithm")

def extractClaims (payload : JWTPayload) : Except AuthError ExtractedClaims :=
  match payload.lookup "deviceId" with
  | some (.str deviceId) =>
    if (trim deviceId.toList).isEmpty then .error (.unauthorized "Token missing deviceId claim")
    else
      let roles :=
        match payload.lookup "roles" with
        | some (.arr items) => items.filterMap fun r => match r with
          | .str role => some role
          | _ => none
        | _ => []
      .ok { userId := payload.lookup "sub", roles := roles, jti := payload.lookup "jti",
            exp := payload.lookup "exp", email := payload.lookup "email",
            sessionId := payload.lookup "sessionId", deviceId := deviceId }
  | _ => .error (.unauthorized "Token missing deviceId claim")

def isMfaToken (payload : JWTPayload) : Bool :=
  match payload.lookup "typ" with
  | some (.str typ) => typ = "mfa"
  | _ => false

/-- the second `try` of `validateToken`: the key follows the algorithm -/
def verifyToken (token : String) (header : ProtectedHeader) : M cfg JWTPayload :=
  match header.alg with
  | some alg =>
    if alg = "HS256" then
      call (.jwtVerify token (.secret cfg.jwtSecret) (verifyOptions cfg)) fromJose
    else if alg = "RS256" ∨ alg = "ES256" then verifyAsymmetric cfg token alg
    else throw (.unauthorized "Algorithm not allowed")
  | none => throw (.unauthorized "Algorithm not allowed")

def validateToken (token : String) : M cfg ExtractedClaims := do
  let header ← tryCatch (call (.decodeProtectedHeader token) fromJose) fun e =>
    throw (.unauthorized (mapJoseError e))
  let payload ← tryCatch (verifyToken cfg token header) fun e =>
    throw (.unauthorized (mapJoseError e))
  if isMfaToken payload then throw (.unauthorized "MFA token cannot be used as access token")
  else
    match extractClaims payload with
    | .ok claims => pure claims
    | .error e => throw e

/-- the token of an `authorization` header, or why there is none -/
def bearer : Option HeaderValue → Except AuthInvalidReason String
  | some (.one raw) =>
    match raw.toList.splitOn ' ' with
    | scheme :: token :: _ =>
      if scheme ≠ "Bearer".toList ∨ token = [] then .error .scheme else .ok (String.ofList token)
    | _ => .error .scheme
  | _ => .error .missing

def authenticate (authorization : Option HeaderValue) : M cfg AuthAnswer :=
  match bearer authorization with
  | .error reason => pure (.invalid reason none)
  | .ok token =>
    tryCatch (do let claims ← validateToken cfg token; pure (.ok claims)) fun err =>
      match err with
      | .unauthorized message => pure (.invalid .token (some message))
      | e => throw e

/-- one service instance, asked again and again -/
def serve (env : Env JoseCall JoseReply) :
    List (Option HeaderValue) → AuthService cfg × Trace JoseCall JoseReply →
      AuthService cfg × Trace JoseCall JoseReply
  | [], w => w
  | a :: as, w =>
    let r := exec env (authenticate cfg a) w.1 w.2
    serve env as (r.1.2, r.2)

end AuthService

end ZTG
