import ZtGateway.Lib.Transactions

/-! `DbService`: single statements on the pool, transactions on a client of it, and the callbacks of
the two repositories that use a transaction. A statement is its text with its parameters. -/

namespace ZTG

variable {ι S Rows E α : Type}

/-- the callback of a transaction: statements on its client, in the end a result or a throw -/
abbrev TxCallback (S Rows E α : Type) := Prog S (fun _ => Except E Rows) (Except E α)

abbrev DbProg (ι S Rows E α : Type) := Prog (DbCall ι S) (DbReply Rows E) (Except E α)

namespace DbService

/-- the statements of a callback, made on the client `c` -/
def onClient (i : ι) (c : ℕ) : TxCallback S Rows E α → DbProg ι S Rows E α
  | .ret r => .ret r
  | .call s k => .call (.query i c (.exec s)) fun rows => onClient i c (k rows)

/-- the `catch`: what becomes of the ROLLBACK is ignored -/
def rollback (i : ι) (c : ℕ) (err : E) : DbProg ι S Rows E α :=
  .call (.query i c .rollback) fun _ => .ret (.error err)

/-- the `try` after the callback -/
def finish (i : ι) (c : ℕ) : Except E α → DbProg ι S Rows E α
  | .error err => rollback i c err
  | .ok result => .call (.query i c .commit) fun (answer : Except E Rows) =>
    match answer with
    | .error err => rollback i c err
    | .ok _ => .ret (.ok result)

def attempt (i : ι) (c : ℕ) (fn : TxCallback S Rows E α) : DbProg ι S Rows E α :=
  .call (.query i c .begin_) fun (answer : Except E Rows) =>
    match answer with
    | .error err => rollback i c err
    | .ok _ => (onClient i c fn).bind (finish i c)

/-- the `finally` -/
def release (i : ι) (c : ℕ) (r : Except E α) : DbProg ι S Rows E α :=
  .call (.release i c) fun _ => .ret r

def tx (i : ι) (fn : TxCallback S Rows E α) : DbProg ι S Rows E α :=
  .call (.connect i) fun (client : Except E ℕ) =>
    match client with
    | .error err => .ret (.error err)
    | .ok c => (attempt i c fn).bind (release i c)

def query (i : ι) (s : S) : DbProg ι S Rows E Rows :=
  .call (.poolQuery i s) fun rows => .ret rows

end DbService

/-- `insertChallengeIfUnderLimit`: the advisory lock and the conditional INSERT -/
def insertChallengeTx (lock insert : S) (rowCount : Rows → ℕ) : TxCallback S Rows E Bool :=
  .call lock fun locked =>
    match locked with
    | .error err => .ret (.error err)
    | .ok _ => .call insert fun answer =>
      match answer with
      | .error err => .ret (.error err)
      | .ok rows => .ret (.ok (decide (0 < rowCount rows)))

/-- `recordAllowOutcome`: the activity row, the row of signals and what is computed from it -/
def recordAllowTx (activity select : S) (upsert : Rows → S) : TxCallback S Rows E Unit :=
  .call activity fun inserted =>
    match inserted with
    | .error err => .ret (.error err)
    | .ok _ => .call select fun existing =>
      match existing with
      | .error err => .ret (.error err)
      | .ok rows => .call (upsert rows) fun answer =>
        match answer with
        | .error err => .ret (.error err)
        | .ok _ => .ret (.ok ())

/-- what one caller asks of `DbService`; `read` is what it makes of the rows -/
inductive DbJob (S Rows E α : Type) where
  | tx (fn : TxCallback S Rows E α)
  | query (s : S) (read : Rows → α)

def DbJob.run (i : ι) : DbJob S Rows E α → DbProg ι S Rows E α
  | .tx fn => DbService.tx i fn
  | .query s read => (DbService.query i s).bind fun rows => .ret (rows.map read)

/-- A failed statement ends the callback with a throw: nothing is caught. -/
def TxCallback.Propagates : TxCallback S Rows E α → Prop
  | .ret _ => True
  | .call _ k => (∀ err, ∃ err', k (.error err) = .ret (.error err')) ∧
    ∀ rows, Propagates (k (.ok rows))

def DbJob.Propagates : DbJob S Rows E α → Prop
  | .tx fn => fn.Propagates
  | .query _ _ => True

namespace DbService

abbrev DbEvent (ι S Rows E : Type) := Event (DbCall ι S) (DbReply Rows E)

/-- a statement that was answered, or sent on its own -/
def statement? : DbEvent ι S Rows E → Option S
  | ⟨.query _ _ (.exec s), (.ok _ : Except E Rows)⟩ => some s
  | ⟨.poolQuery _ s, _⟩ => some s
  | _ => none

/-- a statement of a transaction that was answered with an error -/
def isSpoiled : DbEvent ι S Rows E → Bool
  | ⟨.query _ _ (.exec _), (.error _ : Except E Rows)⟩ => true
  | _ => false

/-- a COMMIT, or a statement on its own, that was answered with an error -/
def isUnconfirmed : DbEvent ι S Rows E → Bool
  | ⟨.query _ _ .commit, (.error _ : Except E Rows)⟩ => true
  | ⟨.poolQuery _ _, (.error _ : Except E Rows)⟩ => true
  | _ => false

abbrev DbTrace (ι S Rows E : Type) := Trace (DbCall ι S) (DbReply Rows E)

def statements (tr : DbTrace ι S Rows E) : List S := tr.filterMap statement?

def spoiled (tr : DbTrace ι S Rows E) : Bool := tr.any isSpoiled

def unconfirmed (tr : DbTrace ι S Rows E) : Bool := tr.any isUnconfirmed

variable [DecidableEq ι]

abbrev World (ι S Rows E α : Type) :=
  Pool ι (Session (DbCall ι S) (DbReply Rows E) (Except E α)) (Server ι S)

/-- any callers, call by call in any order, over one database; a turn of the other kind breaks a
connection -/
def run (jobs : ι → DbJob S Rows E α) (ms : List (ι × Turn (Luck Rows E) ℕ)) :
    World ι S Rows E α :=
  Session.run Server.serve Server.disconnect (fun i => (jobs i).run i) {} ms

end DbService

end ZTG
