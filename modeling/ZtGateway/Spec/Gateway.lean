import ZtGateway.Lib.Sessions
import ZtGateway.Spec.Pipeline
import ZtGateway.Spec.Revocation
import ZtGateway.Spec.Threat

/-! One gateway process: any number of requests, each in its own run of `GatewayMiddleware.use`,
interleaved at their calls with each other and with what is done to a service they share. -/

namespace ZTG

namespace Gateway

abbrev Oracle := (op : Call) → Reply op

/-- `isRevoked` and `Date.now()` are answered by the one service and clock all requests share. -/
def serve (oracle : Oracle) (st : RevocationState) (op : Call) : Reply op × RevocationState :=
  match op with
  | .isRevoked jti => let r := st.isRevoked jti; (.ok r.1, r.2)
  | .now => (st.now, st)
  | op => (oracle op, st)

variable {ι : Type} [DecidableEq ι]

abbrev World (ι : Type) := Pool ι (Session Call Reply (Except Err Unit)) RevocationState

/-- A gateway that has just started, at the time `now`; between the calls of the requests come
revokes (`POST /auth/revoke`, by anyone), look-ups and the clock. -/
def run (cfg : GatewayConfig) (reqs : ι → Request) (now : ℕ)
    (ms : List (ι × Turn Oracle RevocationOp)) : World ι :=
  Session.run serve RevocationState.step (fun i => GatewayMiddleware.use cfg (reqs i))
    (RevocationState.init now) ms

/-! ## The signals -/

def signalOf : EventName → Option SignalType
  | .policyDeny => some .policyDeny
  | .authInvalidToken => some .authInvalidToken
  | .mfaFailed => some .mfaFailed
  | .mfaRateLimited => some .mfaRateLimited
  | .auditSignal => some .auditSignal
  | _ => none

/-- one call on `ThreatEscalationService`, and whether an event of `GatewayMiddleware` made it -/
structure Heard where
  op : ThreatOp
  byRequest : Bool

/-- what is open of a call: its answer, and how far the clock has gone on -/
structure Moment where
  oracle : Oracle
  lag : ℕ

/-- An event is recorded while it is emitted; the service is known by the calls made on it. -/
def hear (m : Moment) (heard : List Heard) (op : Call) : Reply op × List Heard :=
  match op with
  | .emit event _ =>
    match signalOf event with
    | some type => ((), heard ++ [⟨.signal m.lag type, true⟩])
    | none => ((), heard)
  | op => (m.oracle op, heard)

def overhear (heard : List Heard) (op : ThreatOp) : List Heard := heard ++ [⟨op, false⟩]

def alarms (cfg : GatewayConfig) (reqs : ι → Request) (ms : List (ι × Turn Moment ThreatOp)) :
    Pool ι (Session Call Reply (Except Err Unit)) (List Heard) :=
  Session.run hear overhear (fun i => GatewayMiddleware.use cfg (reqs i)) [] ms

end Gateway

end ZTG
