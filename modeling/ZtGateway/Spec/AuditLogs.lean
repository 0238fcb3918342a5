import ZtGateway.Lib.Paging
import ZtGateway.Spec.Services

/-! The listing of the audit log: `AuditRepository.findLogs` and `AuditService.queryLogs`. The
SELECT is a value with its placeholders, and what the database may answer to it is a relation. -/

namespace ZTG

/-- a row of `audit_logs`; `pg` delivers a bigint and a numeric as text -/
structure AuditLogRow where
  id : String
  user_id : String
  resource : String
  action : String
  decision : Decision
  trust_score : Option String
  ja4h_fingerprint : Option String
  ip_address : Option String
  user_agent : Option String
  request_id : Option String
  event_type : Option String
  /-- microseconds since the epoch -/
  created_at : ℕ
  deriving DecidableEq

/-- the table, with its primary key -/
structure AuditTable where
  rows : List AuditLogRow
  ids : (rows.map AuditLogRow.id).Nodup

/-- a row of the result, with `COUNT(*) OVER()` -/
structure LogRow extends AuditLogRow where
  total_count : String

structure AuditLog where
  id : JsNum
  userId : String
  resource : String
  action : String
  decision : Decision
  trustScore : Option JsNum
  ja4hFingerprint : Option String
  ipAddress : Option String
  userAgent : Option String
  requestId : Option String
  eventType : Option String
  /-- a `Date`, in milliseconds -/
  createdAt : ℕ

structure AuditLogFilters where
  userId : Option String
  decision : Option Decision
  limit : ℕ
  offset : ℕ

/-- what the validation pipe lets through -/
structure AuditLogsQueryDto where
  userId : Option String := none
  decision : Option Decision := none
  limit : Option { n : ℕ // 1 ≤ n ∧ n ≤ 200 } := none
  offset : Option ℕ := none

structure LogPage where
  items : List AuditLog
  total : JsNum

def Decision.text : Decision → String
  | .allow => "allow"
  | .challenge => "challenge"
  | .deny => "deny"

inductive LogColumn where
  | user_id
  | decision

def LogColumn.of (row : AuditLogRow) : LogColumn → String
  | .user_id => row.user_id
  | .decision => row.decision.text

inductive SqlParam where
  | text (s : String)
  | num (n : ℕ)
  deriving DecidableEq

/-- `SELECT …, COUNT(*) OVER() FROM audit_logs WHERE column = $i AND … ORDER BY created_at DESC
LIMIT $i OFFSET $i` -/
structure SelectLogs where
  where_ : List (LogColumn × ℕ)
  limitIdx : ℕ
  offsetIdx : ℕ
  params : List SqlParam

namespace SelectLogs

/-- the parameter of a placeholder; they count from one -/
def param (s : SelectLogs) (i : ℕ) : Option SqlParam := s.params[i - 1]?

def selects (s : SelectLogs) (row : AuditLogRow) : Bool :=
  s.where_.all fun c => s.param c.2 == some (.text (c.1.of row))

def bound (s : SelectLogs) (i : ℕ) : ℕ :=
  match s.param i with
  | some (.num n) => n
  | _ => 0

def counted (total : ℕ) (row : AuditLogRow) : LogRow :=
  { row with total_count := toString total }

/-- An answer to the SELECT: rows with the same `created_at` come in any order, and the count is
that of the rows before LIMIT and OFFSET. -/
def Answers (s : SelectLogs) (table : AuditTable) (out : List LogRow) : Prop :=
  ∃ ordered, Arranged AuditLogRow.created_at (table.rows.filter s.selects) ordered ∧
    out = ((ordered.drop (s.bound s.offsetIdx)).take (s.bound s.limitIdx)).map
      (counted (table.rows.filter s.selects).length)

end SelectLogs

namespace AuditRepository

/-- `params.push(value); where.push(...)`, if there is a value -/
def pushFilter (acc : List (LogColumn × ℕ) × List SqlParam) (column : LogColumn)
    (value : Option String) : List (LogColumn × ℕ) × List SqlParam :=
  match value with
  | none => acc
  | some v => (acc.1 ++ [(column, acc.2.length + 1)], acc.2 ++ [.text v])

def selectLogs (filters : AuditLogFilters) : SelectLogs :=
  let acc := pushFilter ([], []) .user_id filters.userId
  let acc := pushFilter acc .decision (filters.decision.map Decision.text)
  { where_ := acc.1,
    limitIdx := acc.2.length + 1,
    offsetIdx := acc.2.length + 2,
    params := acc.2 ++ [.num filters.limit, .num filters.offset] }

def toAuditLog (platform : Platform) (row : AuditLogRow) : AuditLog :=
  { id := platform.toNumber row.id,
    userId := row.user_id,
    resource := row.resource,
    action := row.action,
    decision := row.decision,
    trustScore := row.trust_score.map platform.toNumber,
    ja4hFingerprint := row.ja4h_fingerprint,
    ipAddress := row.ip_address,
    userAgent := row.user_agent,
    requestId := row.request_id,
    eventType := row.event_type,
    createdAt := row.created_at / 1000 }

def findLogs (platform : Platform) (query : SelectLogs → Except Err (List LogRow))
    (filters : AuditLogFilters) : Except Err LogPage := do
  let rows ← query (selectLogs filters)
  return {
    items := rows.map fun row => toAuditLog platform row.toAuditLogRow,
    total := match rows.head? with
      | some row => platform.toNumber row.total_count
      | none => .num 0 }

end AuditRepository

/-- the filters of `AuditService.queryLogs` -/
def AuditLogsQueryDto.filters (q : AuditLogsQueryDto) : AuditLogFilters :=
  { userId := q.userId,
    decision := q.decision,
    limit := q.limit.elim 50 Subtype.val,
    offset := q.offset.getD 0 }

def queryLogs (platform : Platform) (query : SelectLogs → Except Err (List LogRow))
    (q : AuditLogsQueryDto) : Except Err LogPage :=
  AuditRepository.findLogs platform query q.filters

end ZTG
