import ZtGateway.Lib.Pool
import ZtGateway.Spec.Services

/-! `TrustTelemetryRepository.recordAllowOutcome`: the values it computes, and the
transaction statement by statement with any number of calls in flight. SELECT FOR UPDATE
locks a committed row and reads its newest version, waiting for whoever holds it; where
there is no committed row it returns nothing and locks nothing. The upsert waits for a
transaction that holds the row or has inserted it. Times are milliseconds. -/

namespace ZTG

namespace Telemetry

/-- the primary key of `trust_signals` -/
structure Triple where
  userId : String
  deviceId : String
  ip : String
  deriving DecidableEq

/-- the columns of `trust_signals` besides the key -/
structure SignalRow where
  ja4h : Option String
  firstSeenAt : ℤ
  lastSeenAt : ℤ
  allowCount : ℕ
  hourHistogram : List ℕ
  rateEma : ℚ
  rateEmaVar : ℚ
  anomalyObservations : ℕ
  deriving DecidableEq

/-- a row of `trust_activity`; its decision is always `ALLOW` -/
structure ActivityRow where
  key : Triple
  ja4h : Option String
  score : JsNum
  deriving DecidableEq

/-- the arguments of one call, with the timestamp it takes -/
structure Args where
  ctx : TrustContext
  finalScore : JsNum
  ts : ℤ

namespace Args

def key (a : Args) : Triple := ⟨a.ctx.userId, a.ctx.deviceId, a.ctx.ip⟩

/-- `ctx.ja4h || null` -/
def ja4h (a : Args) : Option String := if a.ctx.ja4h = "" then none else some a.ctx.ja4h

/-- `ts.getUTCHours()` -/
def hr (a : Args) : ℕ := (a.ts / 3600000 % 24).toNat

def activity (a : Args) : ActivityRow := ⟨a.key, a.ja4h, a.finalScore⟩

end Args

/-- `hist[hr] = (hist[hr] ?? 0) + 1` on a copy padded to 24 entries -/
def bump (hist : List ℕ) (hr : ℕ) : List ℕ :=
  (hist ++ List.replicate (24 - hist.length) 0).modify hr (· + 1)

/-- the row built from what the SELECT returned; `fl` rounds each double operation -/
def computed (fl : ℚ → ℚ) (a : Args) : Option SignalRow → SignalRow
  | none =>
    { ja4h := a.ja4h, firstSeenAt := a.ts, lastSeenAt := a.ts, allowCount := 1,
      hourHistogram := (List.replicate 24 0).set a.hr 1, rateEma := 0, rateEmaVar := 0,
      anomalyObservations := 1 }
  | some row =>
    let interMs := max 1 (a.ts - row.lastSeenAt)
    let instRate := fl (60000 / interMs)
    let nObs := row.anomalyObservations + 1
    let prevMean := row.rateEma
    let newMean := fl (prevMean + fl (fl (instRate - prevMean) / nObs))
    let newVar :=
      if nObs = 1 then 0
      else fl (fl (fl (((nObs : ℚ) - 2) * row.rateEmaVar) +
        fl (fl (instRate - prevMean) * fl (instRate - newMean))) / ((nObs : ℚ) - 1))
    { ja4h := a.ja4h, firstSeenAt := row.firstSeenAt, lastSeenAt := a.ts,
      allowCount := row.allowCount + 1, hourHistogram := bump row.hourHistogram a.hr,
      rateEma := newMean, rateEmaVar := newVar, anomalyObservations := nObs }

/-- the DO UPDATE clause, on a conflict with the row `old` -/
def doUpdate (old excluded : SignalRow) : SignalRow :=
  { excluded with ja4h := excluded.ja4h.orElse fun _ => old.ja4h,
                  firstSeenAt := min old.firstSeenAt excluded.firstSeenAt }

inductive Phase where
  | idle
  | begun
  /-- the activity row is inserted -/
  | active
  | selected (existing : Option SignalRow)
  /-- the row as the upsert leaves it -/
  | upserted (row : SignalRow)
  | failed
  | returned
  | thrown
  deriving DecidableEq

/-- the committed tables, and which open transaction holds or has inserted a row -/
structure Db (ι : Type) where
  signals : Triple → Option SignalRow := fun _ => none
  activity : List ActivityRow := []
  holder : Triple → Option ι := fun _ => none

inductive Statement where
  | begin_
  | insertActivity
  | select
  | upsert
  /-- `acked` is false if the answer to COMMIT is lost -/
  | commit (acked : Bool)
  /-- any statement that fails -/
  | fail
  | rollback
  deriving DecidableEq

variable {ι : Type} [DecidableEq ι]

/-- `i` does not have to wait for the row -/
def Db.free (db : Db ι) (k : Triple) (i : ι) : Bool := db.holder k = none || db.holder k = some i

def Db.hold (db : Db ι) (k : Triple) (i : ι) : Db ι :=
  { db with holder := Function.update db.holder k (some i) }

def Db.release (db : Db ι) (i : ι) : Db ι :=
  { db with holder := fun k => if db.holder k = some i then none else db.holder k }

def select (a : Args) (i : ι) (db : Db ι) : Option (Phase × Db ι) :=
  match db.signals a.key with
  | none => some (.selected none, db)
  | some row => if db.free a.key i then some (.selected (some row), db.hold a.key i) else none

def upsert (fl : ℚ → ℚ) (a : Args) (i : ι) (existing : Option SignalRow) (db : Db ι) :
    Option (Phase × Db ι) :=
  if db.free a.key i then
    let excluded := computed fl a existing
    let row := match db.signals a.key with
      | none => excluded
      | some old => doUpdate old excluded
    some (.upserted row, db.hold a.key i)
  else none

def commit (a : Args) (i : ι) (row : SignalRow) (db : Db ι) : Db ι :=
  { db.release i with signals := Function.update db.signals a.key (some row),
                      activity := db.activity ++ [a.activity] }

/-- one statement of call `i` -/
def act (fl : ℚ → ℚ) (args : ι → Args) (i : ι) :
    Statement → Phase → Db ι → Option (Phase × Db ι)
  | .begin_, .idle, db => some (.begun, db)
  | .insertActivity, .begun, db => some (.active, db)
  | .select, .active, db => select (args i) i db
  | .upsert, .selected existing, db => upsert fl (args i) i existing db
  | .commit acked, .upserted row, db =>
    some (if acked then .returned else .thrown, commit (args i) i row db)
  | .fail, .begun, db => some (.failed, db)
  | .fail, .active, db => some (.failed, db)
  | .fail, .selected _, db => some (.failed, db)
  | .fail, .upserted _, db => some (.failed, db)
  | .rollback, .failed, db => some (.thrown, db.release i)
  | _, _, _ => none

def step (fl : ℚ → ℚ) (args : ι → Args) : Pool ι Phase (Db ι) → ι × Statement →
    Pool ι Phase (Db ι) := Pool.step (act fl args)

/-- no call has begun -/
def start (db : Db ι) : Pool ι Phase (Db ι) := ⟨db, fun _ => .idle⟩

end Telemetry

end ZTG
