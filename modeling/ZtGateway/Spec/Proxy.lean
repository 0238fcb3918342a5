import ZtGateway.Lib.Url
import ZtGateway.Spec.Services

/-! The proxy: the service registry, the guard on resolved addresses, the retry loop behind the
circuit breaker, and `ProxyService.forward`. What leaves the process is a call: the address
lookup, the client certificate, the breaker's verdict, the upstream request and the waits. -/

namespace ZTG

open Act

/-- what `ProxyService.forward` throws -/
inductive ProxyErr where
  | notFound (message : String)
  | forbidden (message : String)
  | serviceUnavailable (message : String)
  | badGateway (message : String)
  /-- the `TypeError` of `new URL` -/
  | invalidUrl
  /-- an error that `CircuitBreaker.isOurError` recognises -/
  | breaker
  /-- any other error, with its `code` -/
  | error (message : String) (code : Option String)
  deriving DecidableEq

/-- what `forward` hands to axios; it has no `maxRedirects` and no `lookup` -/
structure AxiosRequestConfig where
  method : String
  /-- the source hands over `target.toString()`, which is its `href` -/
  url : Url
  headers : List (String × String)
  data : Json

structure AxiosResponse where
  status : ℕ
  contentType : Option HeaderValue
  data : Json

inductive ProxyCall where
  /-- `dns.promises.lookup` -/
  | lookup (hostname : List Char)
  | getHttpsAgent
  /-- whether the breaker of the service lets a request through -/
  | admits (serviceName : List Char)
  | axios (config : AxiosRequestConfig)
  | sleep (ms : ℕ)

@[reducible] def ProxyReply : ProxyCall → Type
  | .lookup _ => Except ProxyErr String
  | .getHttpsAgent => Except ProxyErr Unit
  | .admits _ => Bool
  | .axios _ => Except ProxyErr AxiosResponse
  | .sleep _ => Unit

abbrev ProxyM := Act ProxyCall ProxyReply Unit ProxyErr

/-! `ServiceRegistryService` -/

abbrev ServiceRegistry := List (String × String)

namespace ServiceRegistry

def listServices (registry : ServiceRegistry) : List String := registry.map Prod.fst

/-- an empty base URL counts as missing -/
def resolve (registry : ServiceRegistry) (serviceName : List Char) : Except ProxyErr String :=
  match registry.lookup (String.ofList serviceName) with
  | some url =>
    if url = "" then
      .error (.notFound
        ("Unknown service: " ++ String.ofList serviceName ++ ". Not in PROXY_SERVICE_REGISTRY."))
    else .ok url
  | none =>
    .error (.notFound
      ("Unknown service: " ++ String.ofList serviceName ++ ". Not in PROXY_SERVICE_REGISTRY."))

end ServiceRegistry

/-- the first path segment -/
def extractServiceName (path : List Char) : Option (List Char) :=
  if path = [] ∨ path = ['/'] then none
  else
    let stripped := if path.head? = some '/' then path.drop 1 else path
    let first := stripped.takeWhile (· != '/')
    if first = [] then none else some first

def stripPrefix (path : List Char) : List Char :=
  match extractServiceName path with
  | none => path
  | some name =>
    let remainder := path.drop (name.length + 1)
    if remainder = [] then ['/'] else remainder

/-! `DnsRebindingGuard` -/

def BLOCKED_EXACT : List String := ["::1", "169.254.169.254"]

/-- `net.isIPv4`, with the four numbers -/
def parseIPv4 (s : String) : Option (List ℕ) :=
  let parts := s.toList.splitOn '.'
  let octet (p : List Char) : Bool :=
    p.all Char.isDigit && 1 ≤ p.length && p.length ≤ 3 && (p.length == 1 || p.head? != some '0')
  let values := parts.map fun p => p.foldl (fun n c => 10 * n + (c.toNat - '0'.toNat)) 0
  if parts.length == 4 && parts.all octet && values.all (· ≤ 255) then some values else none

def ipv4ToUint32 (octets : List ℕ) : ℕ :=
  octets.foldl (fun acc oct => ((acc <<< 8) ||| oct) % 2 ^ 32) 0

def inCidr (ip base : ℕ) (bits : ℕ) : Bool :=
  let mask := if bits = 0 then 0 else (0xffffffff <<< (32 - bits)) % 2 ^ 32
  (ip &&& mask) == (base &&& mask)

def assertSafe (hostname : List Char) : ProxyM Unit := do
  let address : String ← call (.lookup hostname) id
  let blocked : ProxyErr := .forbidden
    ("DNS rebinding guard: " ++ String.ofList hostname ++
      " resolves to blocked address " ++ address)
  if BLOCKED_EXACT.contains address then throw blocked
  else
    match parseIPv4 address with
    | some octets =>
      if inCidr (ipv4ToUint32 octets) (ipv4ToUint32 [127, 0, 0, 0]) 8 then throw blocked
      else pure ()
    | none => pure ()

/-! `ProxyService` -/

def RETRIABLE_ERROR_CODES : List String := ["ECONNREFUSED", "ETIMEDOUT", "ECONNRESET"]

def RETRIABLE_STATUSES : List ℕ := [502, 503, 504]

def BACKOFF_DELAYS_MS : List ℕ := [100, 200, 400]

def STRIP_HEADERS : List String :=
  ["authorization", "cookie", "x-forwarded-for", "host", "content-length"]

/-- assignment to a key of an object -/
def setHeader (out : List (String × String)) (name value : String) : List (String × String) :=
  if out.any fun h => h.1 == name then out.map fun h => if h.1 == name then (name, value) else h
  else out ++ [(name, value)]

def buildProxyHeaders (platform : Platform) (incoming : List (String × HeaderValue))
    (claims : UserClaims) (trustScore : JsNum) (ja4h : Option String) : List (String × String) :=
  let kept := incoming.filter fun h =>
    !STRIP_HEADERS.contains h.1.toLower && !"x-gateway-".toList.isPrefixOf h.1.toLower.toList
  let out := kept.foldl (fun out h => setHeader out h.1 h.2.asString) []
  let out := setHeader out "x-user-id" claims.userId
  let out := setHeader out "x-roles" (",".intercalate claims.roles)
  let out := setHeader out "x-trust-score" (platform.numToString trustScore)
  let out := setHeader out "x-gateway-request" "true"
  match ja4h with
  | some fp => setHeader out "x-ja4h" fp
  | none => out

/-- whether the loop may try again after this error -/
def ProxyErr.retriable : ProxyErr → Bool
  | .error _ (some code) => RETRIABLE_ERROR_CODES.contains code
  | _ => false

def backoff (attempt : ℕ) : ℕ :=
  BACKOFF_DELAYS_MS.getD (min attempt (BACKOFF_DELAYS_MS.length - 1)) 0

/-- The loop of `executeWithRetry` with `left` attempts after the present one. -/
def retryLoop (maxRetries : ℕ) (config : AxiosRequestConfig) : ℕ → ProxyM AxiosResponse
  | 0 => do
    let outcome : Except ProxyErr AxiosResponse ← call (.axios config) .ok
    match outcome with
    | .ok response =>
      if RETRIABLE_STATUSES.contains response.status then
        throw (.error ("Upstream " ++ toString response.status ++ " after " ++
          toString maxRetries ++ " retries") none)
      else pure response
    | .error err => throw err
  | left + 1 => do
    let outcome : Except ProxyErr AxiosResponse ← call (.axios config) .ok
    match outcome with
    | .ok response =>
      if RETRIABLE_STATUSES.contains response.status then
        tell (.sleep (backoff (maxRetries - (left + 1))))
        retryLoop maxRetries config left
      else pure response
    | .error err =>
      if err.retriable then
        tell (.sleep (backoff (maxRetries - (left + 1))))
        retryLoop maxRetries config left
      else throw err

def executeWithRetry (maxRetries : ℕ) (config : AxiosRequestConfig) : ProxyM AxiosResponse :=
  retryLoop maxRetries config maxRetries

/-! The same loop statement by statement, with `try`, `catch`, `continue` and `lastErr`. -/

namespace Retry

/-- how one pass through the body ends, if it does not throw -/
inductive Pass where
  | return_ (response : AxiosResponse)
  | continue_ (lastErr : ProxyErr)

/-- how the `for` statement ends, if it does not throw -/
inductive LoopEnd where
  | return_ (response : AxiosResponse)
  /-- `attempt <= maxRetries` has become false -/
  | exhausted (lastErr : Option ProxyErr)

/-- The error of the last attempt is thrown inside the `try`, so the `catch` sees it too. -/
def pass (maxRetries : ℕ) (config : AxiosRequestConfig) (attempt : ℕ) : ProxyM Pass :=
  tryCatch
    (do
      let response : AxiosResponse ← call (.axios config) id
      if RETRIABLE_STATUSES.contains response.status then
        if attempt < maxRetries then
          tell (.sleep (backoff attempt))
          pure (.continue_ (.error ("Upstream " ++ toString response.status) none))
        else
          throw (.error ("Upstream " ++ toString response.status ++ " after " ++
            toString maxRetries ++ " retries") none)
      else pure (.return_ response))
    fun err => do
      if err.retriable && attempt < maxRetries then
        tell (.sleep (backoff attempt))
        pure (.continue_ err)
      else throw err

/-- the `for` statement over the attempts that are left -/
def loop (maxRetries : ℕ) (config : AxiosRequestConfig) :
    List ℕ → Option ProxyErr → ProxyM LoopEnd
  | [], lastErr => pure (.exhausted lastErr)
  | attempt :: attempts, _ => do
    match ← pass maxRetries config attempt with
    | .return_ response => pure (.return_ response)
    | .continue_ lastErr => loop maxRetries config attempts (some lastErr)

def executeWithRetry (maxRetries : ℕ) (config : AxiosRequestConfig) : ProxyM AxiosResponse := do
  match ← loop maxRetries config (List.range (maxRetries + 1)) none with
  | .return_ response => pure response
  | .exhausted lastErr =>
    throw (lastErr.getD (.error "retry loop exhausted with no error captured" none))

end Retry

def includes (s t : List Char) : Bool := s.tails.any t.isPrefixOf

def assertValidProxyResponse (response : AxiosResponse) : ProxyM Unit :=
  let ct := match response.contentType with
    | some (.one s) => s
    | some (.many l) => l.headD ""
    | none => ""
  if 500 ≤ response.status then
    throw (.serviceUnavailable ("Upstream returned " ++ toString response.status))
  else if !includes ct.toLower.toList "application/json".toList then
    throw (.badGateway
      ("Unexpected Content-Type from upstream: " ++ if ct = "" then "missing" else ct))
  else pure ()

structure ProxyService where
  registry : ServiceRegistry
  /-- the services that have a circuit breaker -/
  breakers : List String
  maxRetries : ℕ
  platform : Platform
  parseHost : HostParser

namespace ProxyService

/-- the service after its module has started -/
def onModuleInit (registry : ServiceRegistry) (maxRetries : ℕ) (platform : Platform)
    (parseHost : HostParser) : ProxyService :=
  { registry := registry,
    breakers := registry.listServices,
    maxRetries := maxRetries,
    platform := platform,
    parseHost := parseHost }

/-- `baseUrl.endsWith('/') ? baseUrl : baseUrl + '/'` -/
def withSlash (baseUrl : List Char) : List Char :=
  if baseUrl.getLast? = some '/' then baseUrl else baseUrl ++ ['/']

/-- the path and query that are left for the service -/
def forwardedPath (parseHost : HostParser) (rawUrl : List Char) : Option (List Char) :=
  (newUrl parseHost rawUrl "http://placeholder".toList).map fun parsed =>
    stripPrefix parsed.pathname ++ parsed.search

/-- The first half of `forward`: the service of a request and the URL to call. -/
def resolveTarget (p : ProxyService) (rawUrl : String) : Except ProxyErr (List Char × Url) := do
  match extractServiceName (beforeQuery rawUrl).toList with
  | none => throw (.notFound "Cannot extract service name from path")
  | some serviceName =>
    let baseUrl ← p.registry.resolve serviceName
    match forwardedPath p.parseHost rawUrl.toList with
    | none => throw .invalidUrl
    | some path =>
      match newUrl p.parseHost path (withSlash baseUrl.toList) with
      | none => throw .invalidUrl
      | some target => pure (serviceName, target)

/-- `breaker.fire`: the breaker refuses, or it runs the whole retry loop -/
def fire (p : ProxyService) (serviceName : List Char) (config : AxiosRequestConfig) :
    ProxyM AxiosResponse := do
  let admitted : Bool ← call (.admits serviceName) .ok
  if admitted then executeWithRetry p.maxRetries config else throw .breaker

def forward (p : ProxyService) (req : Request) (claims : UserClaims) (trustScore : JsNum) :
    ProxyM AxiosResponse :=
  match p.resolveTarget req.rawUrl with
  | .error err => throw err
  | .ok (serviceName, target) => do
    assertSafe target.hostname
    if p.breakers.contains (String.ofList serviceName) then
      call .getHttpsAgent id
      let config : AxiosRequestConfig :=
        { method := req.method,
          url := target,
          headers := buildProxyHeaders p.platform req.headers claims trustScore (extractJa4h req),
          data := req.body }
      tryCatch
        (do
          let response ← p.fire serviceName config
          assertValidProxyResponse response
          pure response)
        fun err =>
          match err with
          | .breaker =>
            throw (.serviceUnavailable ("Circuit open for service: " ++ String.ofList serviceName))
          | err => throw err
    else
      throw (.serviceUnavailable ("No circuit breaker for service: " ++ String.ofList serviceName))

/-- the requests a run of `forward` hands to axios -/
def upstreamCalls (p : ProxyService) (env : Env ProxyCall ProxyReply) (req : Request)
    (claims : UserClaims) (trustScore : JsNum) : List AxiosRequestConfig :=
  (exec env (p.forward req claims trustScore) () []).2.filterMap fun e =>
    match e.op with
    | .axios config => some config
    | _ => none

end ProxyService

end ZTG
