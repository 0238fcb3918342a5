import ZtGateway.Spec.Pipeline

/-! The guards behind the gateway: what stands between a request that `GatewayMiddleware` handed on
with `next()` and the handler of a controller. -/

namespace ZTG

open Act

/-- what `Reflector.getAllAndOverride` finds on a handler or else on its class, and whether one of
them carries `@UseGuards(JwtAuthGuard)` -/
structure Route where
  /-- `@Roles(...)` -/
  roles : Option (List String) := none
  /-- `@Public()` -/
  isPublic : Bool := false
  jwtAuthGuard : Bool := false

def RolesGuard.canActivate (route : Route) (req : Request) : Bool :=
  match route.roles with
  | none => true
  | some requiredRoles =>
    if requiredRoles.length = 0 then true
    else
      match req.user with
      | none => false
      | some user => requiredRoles.any fun role => user.roles.contains role

/-- a guard works on the request in place -/
abbrev GuardM := Act Call Reply Request Err

/-- `new UnauthorizedException(undefined)` has the default message -/
def JwtAuthGuard.canActivate (route : Route) : GuardM Bool := do
  if route.isPublic then pure true
  else
    let req ← get
    if req.gatewayValidated then pure true
    else
      let outcome : AuthOutcome ← call (.authenticate req) id
      match outcome with
      | .ok claims =>
        modify fun req => { req with user := some claims, gatewayValidated := true }
        pure true
      | .invalid _ message =>
        let ts : ℕ ← call .now .ok
        tell (.emit .authInvalidToken (some (buildAuthInvalidPayload req ts)))
        throw (.unauthorized (message.getD "Unauthorized"))

/-- Nest asks the global guard first, then the route's own; a `false` is a 403. -/
def tryActivate (route : Route) : GuardM Unit := do
  let req ← get
  if RolesGuard.canActivate route req then
    if route.jwtAuthGuard then
      let admitted ← JwtAuthGuard.canActivate route
      if admitted then pure () else throw (.http 403 "Forbidden resource")
    else pure ()
  else throw (.http 403 "Forbidden resource")

def Call.isNext : Call → Bool
  | .next => true
  | _ => false

/-- A request as it comes from the socket and `Ja4hMiddleware`: nothing is known of its sender. -/
structure IncomingRequest extends Request where
  no_user : toRequest.user = none
  not_validated : toRequest.gatewayValidated = false

/-- The request and every call so far, if the middleware called `next()` and the guards of the
route let it through to the handler; the calls of the guards stand after the middleware's. -/
def admitted (cfg : GatewayConfig) (env : Env Call Reply) (route : Route) (req : IncomingRequest) :
    Option (Request × Trace Call Reply) :=
  let run := Prog.exec env [] (GatewayMiddleware.handle cfg req.toRequest)
  if run.2.any fun e => e.op.isNext then
    match exec env (tryActivate route) run.1.2 run.2 with
    | ((.ok (), handed), tr) => some (handed, tr)
    | _ => none
  else none

end ZTG
