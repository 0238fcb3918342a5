import ZtGateway.Lib.Pool
import ZtGateway.Spec.Mfa

/-! `insertChallengeIfUnderLimit` as the transaction it is, statement by statement, with
any number of calls in flight. A statement sees what is committed when it runs and what
its own transaction wrote; an advisory lock is held until COMMIT or ROLLBACK. All times
are in one unit, the window included. -/

namespace ZTG

namespace RateLimit

/-- the arguments of one call that differ between calls -/
structure Args where
  challengeId : String
  userId : String
  expiresAt : ℕ

/-- what the calls share; `hashtext` is the database's hash of a text -/
structure Limits where
  window : ℕ
  maxCount : ℕ
  hashtext : String → ℤ

/-- where one call is; `start` is `NOW()` of its transaction -/
inductive Phase where
  | idle
  | begun (start : ℕ)
  | locked (start : ℕ)
  | inserted (start : ℕ) (affected : Bool)
  /-- a statement failed, the transaction is still open -/
  | failed
  | returned (inserted : Bool)
  | thrown
  deriving DecidableEq

/-- committed rows, rows of open transactions, and who holds which advisory lock -/
structure Db (ι : Type) where
  rows : List ChallengeRow := []
  uncommitted : List (ι × ChallengeRow) := []
  locks : ℤ → Option ι := fun _ => none

inductive Statement where
  | begin_ (start : ℕ)
  | lock
  | insert
  /-- `acked` is false if the answer to COMMIT is lost -/
  | commit (acked : Bool)
  /-- any statement that fails for a reason of its own -/
  | fail
  | rollback
  deriving DecidableEq

variable {ι : Type} [DecidableEq ι]

def rowOf (a : Args) (start : ℕ) : ChallengeRow :=
  { challengeId := a.challengeId, userId := a.userId, createdAt := start, expiresAt := a.expiresAt }

/-- the end of a transaction: its locks are free, its uncommitted rows gone -/
def Db.release (db : Db ι) (i : ι) : Db ι :=
  { db with uncommitted := db.uncommitted.filter fun u => u.1 ≠ i,
            locks := fun k => if db.locks k = some i then none else db.locks k }

def insert (lim : Limits) (a : Args) (i : ι) (start : ℕ) (db : Db ι) : Option (Phase × Db ι) :=
  -- the subquery counts from `NOW()`, the start of the transaction
  if recentRows db.rows a.userId start lim.window < lim.maxCount then
    -- the primary key: an open transaction with the same id is waited for
    if db.uncommitted.any (fun u => u.1 ≠ i && u.2.challengeId = a.challengeId) then none
    else if db.rows.any (·.challengeId = a.challengeId) then some (.failed, db)
    else some (.inserted start true,
      { db with uncommitted := db.uncommitted ++ [(i, rowOf a start)] })
  else some (.inserted start false, db)

def commit (a : Args) (i : ι) (start : ℕ) (affected : Bool) (db : Db ι) : Db ι :=
  let db := db.release i
  if affected then { db with rows := db.rows ++ [rowOf a start] } else db

/-- one statement of call `i` -/
def act (lim : Limits) (args : ι → Args) (i : ι) :
    Statement → Phase → Db ι → Option (Phase × Db ι)
  | .begin_ start, .idle, db => some (.begun start, db)
  | .lock, .begun start, db =>
    let key := lim.hashtext (args i).userId
    match db.locks key with
    | none => some (.locked start, { db with locks := Function.update db.locks key (some i) })
    | some _ => none
  | .insert, .locked start, db => insert lim (args i) i start db
  | .commit acked, .inserted start affected, db =>
    some (if acked then .returned affected else .thrown, commit (args i) i start affected db)
  | .fail, .begun _, db => some (.failed, db)
  | .fail, .locked _, db => some (.failed, db)
  | .fail, .inserted _ _, db => some (.failed, db)
  | .rollback, .failed, db => some (.thrown, db.release i)
  | _, _, _ => none

/-- no call has begun, and the table is empty -/
def start : Pool ι Phase (Db ι) := ⟨{}, fun _ => .idle⟩

def step (lim : Limits) (args : ι → Args) : Pool ι Phase (Db ι) → ι × Statement →
    Pool ι Phase (Db ι) := Pool.step (act lim args)

end RateLimit

end ZTG
