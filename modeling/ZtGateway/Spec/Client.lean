import ZtGateway.Spec.Pipeline
import ZtGateway.Spec.Proxy

/-! What reaches the client: the responses of the middleware, and the one that
`HttpExceptionFilter` writes for an error that was rethrown. `ProxyStage` sees what
`ProxyService.forward` returns or throws. -/

namespace ZTG

/-- `getStatus()` of the errors that are an `HttpException` -/
def Err.getStatus : Err → Option ℕ
  | .serviceUnavailable _ => some 503
  | .unauthorized _ => some 401
  | .http status _ => some status
  | .auditExhausted _ | .error _ => none

def Err.message : Err → String
  | .auditExhausted m | .serviceUnavailable m | .unauthorized m | .http _ m | .error m => m

/-- `HttpExceptionFilter.catch`, before any headers are sent -/
def HttpExceptionFilter.catch_ (timestamp : String) (exception : Err) : ℕ × Option Json :=
  let answer (statusCode : ℕ) (message : String) : ℕ × Option Json :=
    (statusCode, some (.obj [("statusCode", .num (.num statusCode)), ("message", .str message),
      ("timestamp", .str timestamp)]))
  match exception.getStatus with
  | some statusCode => answer statusCode exception.message
  | none => answer 500 "Internal server error"

def Event.response : Event Call Reply → Option (ℕ × Option Json)
  | ⟨.respond status _ body, _⟩ => some (status, body)
  | _ => none

/-- The statuses and bodies that are written for one run; once one is written, the filter does
nothing. -/
def clientResponses (timestamp : String) (run : Except Err Unit × Trace Call Reply) :
    List (ℕ × Option Json) :=
  let written := run.2.filterMap Event.response
  match run.1, written with
  | .error e, [] => [HttpExceptionFilter.catch_ timestamp e]
  | _, written => written

/-- the class of what `forward` throws; the message of an error that is no `HttpException` is
never shown -/
def ProxyErr.thrown : ProxyErr → Err
  | .notFound m => .http 404 m
  | .forbidden m => .http 403 m
  | .serviceUnavailable m => .serviceUnavailable m
  | .badGateway m => .http 502 m
  | .invalidUrl => .error "Invalid URL"
  | .breaker => .error "Breaker is open"
  | .error m _ => .error m

def forwardReply : Except ProxyErr AxiosResponse → Except Err Upstream
  | .ok response => .ok ⟨response.status, response.data⟩
  | .error err => .error err.thrown

/-- `ProxyStage` talks to this proxy; what the network does may depend on all that happened. -/
structure ServedBy (p : ProxyService) (env : Env Call Reply) where
  network : Trace Call Reply → Env ProxyCall ProxyReply
  forward : ∀ tr req claims score, env tr (.forward req claims score) =
    forwardReply (Act.exec (network tr) (p.forward req claims score) () []).1.1

end ZTG
