import ZtGateway.Lib.Operators
import ZtGateway.Lib.Run
import ZtGateway.Spec.Services

/-! `TokenRevocationService` and `POST /auth/revoke`. Token expiries are seconds, as JSON numbers,
stored times are milliseconds, and `Date.now()` is the state's clock. -/

namespace ZTG

structure RevocationEntry where
  expiresAt : ℚ
  userId : String
  deriving DecidableEq

/-- `RevokeTokenDto`, as the validation pipe lets it through -/
structure RevokeTokenDto where
  jti : String
  exp : ℚ
  jti_nonempty : jti ≠ ""

namespace RevokeTokenDto

/-- the `expiresAtMs` of `AuthController.revoke` -/
def expiresAtMs (dto : RevokeTokenDto) : ℚ := Js.multiply dto.exp 1000

/-- Whole seconds are converted without rounding. -/
theorem expiresAtMs_intCast {dto : RevokeTokenDto} {n : ℤ} (hexp : dto.exp = n)
    (hn : |n * 1000| < 2 ^ 53) : dto.expiresAtMs = n * 1000 := by
  have h := Js.multiply_intCast hn
  rw [expiresAtMs, hexp]
  push_cast at h
  exact h

end RevokeTokenDto

structure RevocationState where
  now : ℕ
  blacklist : String → Option RevocationEntry
  emitted : List EventName

namespace RevocationState

def init (now : ℕ) : RevocationState := { now := now, blacklist := fun _ => none, emitted := [] }

/-- `Map.set` -/
def put (st : RevocationState) (jti : String) (entry : RevocationEntry) : RevocationState :=
  { st with blacklist := Function.update st.blacklist jti (some entry) }

/-- `Map.delete` -/
def delete (st : RevocationState) (jti : String) : RevocationState :=
  { st with blacklist := Function.update st.blacklist jti none }

/-- `TokenRevocationService.revoke` -/
def revoke (st : RevocationState) (jti : String) (expiresAt : ℚ) (userId : String) :
    RevocationState :=
  st.put jti { expiresAt := expiresAt, userId := userId }

def isRevoked (st : RevocationState) (jti : String) : Bool × RevocationState :=
  match st.blacklist jti with
  | none => (false, st)
  | some entry => if entry.expiresAt ≤ st.now then (false, st.delete jti) else (true, st)

def getEntry (st : RevocationState) (jti : String) : Option RevocationEntry × RevocationState :=
  match st.blacklist jti with
  | none => (none, st)
  | some entry => if entry.expiresAt ≤ st.now then (none, st.delete jti) else (some entry, st)

end RevocationState

def UserClaims.isAdmin (user : UserClaims) : Bool := user.roles.contains "admin"

/-- `AuthController.revoke`; `user` is what the guards left in `req.user` -/
def AuthController.revoke (st : RevocationState) (user : Option UserClaims) (dto : RevokeTokenDto) :
    Except Err String × RevocationState :=
  match user with
  | none => (.error (.unauthorized "Missing authenticated user"), st)
  | some user =>
    let expiresAtMs := dto.expiresAtMs
    let accept (st : RevocationState) : Except Err String × RevocationState :=
      let st := st.revoke dto.jti expiresAtMs user.userId
      (.ok "Token revoked", { st with emitted := st.emitted ++ [.authTokenRevoked] })
    if user.isAdmin then accept st
    else
      match st.getEntry dto.jti with
      | (some existing, st) =>
        if existing.userId ≠ user.userId then
          (.error (.http 403 "Cannot revoke another user's token"), st)
        else accept st
      | (none, st) => accept st

/-- what can happen to the service -/
inductive RevocationOp where
  | revoke (user : Option UserClaims) (dto : RevokeTokenDto)
  | isRevoked (jti : String)
  | getEntry (jti : String)
  | advance (ms : ℕ)

def RevocationState.step (st : RevocationState) : RevocationOp → RevocationState
  | .revoke user dto => (AuthController.revoke st user dto).2
  | .isRevoked jti => (st.isRevoked jti).2
  | .getEntry jti => (st.getEntry jti).2
  | .advance ms => { st with now := st.now + ms }

end ZTG
