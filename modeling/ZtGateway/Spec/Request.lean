import ZtGateway.Lib.JsNumber

/-! What the gateway reads of a request: the Express request with the fields the
middlewares attach to it, the claims of its bearer token, and the helpers of
`request-context.util.ts`. Header names are lower case, as Node delivers them. -/

namespace ZTG

inductive Json where
  | null
  | bool (b : Bool)
  | num (n : JsNum)
  | str (s : String)
  | arr (items : List Json)
  | obj (fields : List (String × Json))

/-- `UserClaims`; `exp` is in Unix seconds -/
structure UserClaims where
  userId : String
  roles : List String
  jti : String
  exp : ℚ
  email : Option String := none
  sessionId : Option String := none
  deviceId : String
  deriving DecidableEq

inductive HeaderValue where
  | one (value : String)
  | many (values : List String)

/-- The cast `as string`: Node joins a repeated header into one string. -/
def HeaderValue.asString : HeaderValue → String
  | .one v => v
  | .many vs => ", ".intercalate vs

structure Request where
  method : String
  originalUrl : Option String
  url : Option String := none
  path : String := "/"
  headers : List (String × HeaderValue) := []
  remoteAddress : Option String := none
  body : Json := .null
  /-- `req['x-ja4h']`, set by `Ja4hMiddleware` -/
  ja4h : Option String := none
  user : Option UserClaims := none
  gatewayValidated : Bool := false
  trustScore : Option JsNum := none

/-- `req.headers[name] as string | undefined` -/
def Request.header (req : Request) (name : String) : Option String :=
  (req.headers.lookup name).map HeaderValue.asString

/-- `x || d` on a string that may be undefined -/
def orElse (x : Option String) (d : String) : String :=
  match x with
  | some s => if s = "" then d else s
  | none => d

/-- the characters `String.prototype.trim` removes -/
def isJsSpace (c : Char) : Bool :=
  let n := c.toNat
  (0x09 ≤ n && n ≤ 0x0d) || n == 0x20 || n == 0xa0 || n == 0x1680 || (0x2000 ≤ n && n ≤ 0x200a) ||
    n == 0x2028 || n == 0x2029 || n == 0x202f || n == 0x205f || n == 0x3000 || n == 0xfeff

def trim (s : List Char) : List Char :=
  ((s.dropWhile isJsSpace).reverse.dropWhile isJsSpace).reverse

/-- `/^(\d{1,3}\.){3}\d{1,3}$/` -/
def matchesIpv4 (s : List Char) : Bool :=
  let parts := s.splitOn '.'
  parts.length == 4 && parts.all fun p => 1 ≤ p.length && p.length ≤ 3 && p.all Char.isDigit

def ipv6Char (c : Char) : Bool :=
  c.isDigit || ('a' ≤ c && c ≤ 'f') || ('A' ≤ c && c ≤ 'F') || c == ':'

/-- `/^[0-9a-fA-F:]+$/` -/
def matchesIpv6 (s : List Char) : Bool := !s.isEmpty && s.all ipv6Char

def isValidIp (s : List Char) : Bool := matchesIpv4 s || matchesIpv6 s

/-- the first comma-separated entry of the (first) value, trimmed -/
def firstForwarded : HeaderValue → List Char
  | .one v => trim (v.toList.takeWhile (· != ','))
  | .many vs => trim ((vs.headD "").toList.takeWhile (· != ','))

def HeaderValue.truthy : HeaderValue → Bool
  | .one v => v != ""
  | .many _ => true

def extractIp (req : Request) : String :=
  let socket := orElse req.remoteAddress "unknown"
  match req.headers.lookup "x-forwarded-for" with
  | some forwarded =>
    let first := firstForwarded forwarded
    if forwarded.truthy && !first.isEmpty && isValidIp first then String.ofList first else socket
  | none => socket

/-- `null` when the header is absent or empty -/
def extractDeviceId (req : Request) : Option String :=
  match req.header "x-device-id" with
  | some s => if s = "" then none else some s
  | none => none

def extractJa4h (req : Request) : Option String :=
  match req.ja4h with
  | some s => if s = "" then none else some s
  | none => none

/-- `req.originalUrl ?? req.url ?? req.path` -/
def Request.rawUrl (req : Request) : String :=
  (req.originalUrl.orElse fun _ => req.url).getD req.path

/-- the text before the first `?` -/
def beforeQuery (raw : String) : String := String.ofList (raw.toList.takeWhile (· != '?'))

end ZTG
