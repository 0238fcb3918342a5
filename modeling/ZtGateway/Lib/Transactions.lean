import ZtGateway.Lib.Sessions

/-! A transactional database behind a pool of connections. A connection has at most one transaction
block; a command may be refused, or its connection may break before the answer, and what the
statements of a block have written is committed as a whole or never. -/

namespace ZTG

/-- a command on one connection -/
inductive Sql (S : Type) where
  | begin_
  | commit
  | rollback
  | exec (statement : S)

/-- how server and network take a command -/
inductive Fate where
  | done
  /-- an error is answered -/
  | refused
  /-- the connection breaks before the answer, with the command executed or not -/
  | broken (executed : Bool)

/-- a connection as the server has it -/
inductive Block (S : Type) where
  /-- outside a transaction block -/
  | idle
  | opened (statements : List S)
  /-- a statement failed: only the end of the block is accepted -/
  | failed
  | closed

structure Taken (S : Type) where
  confirmed : Bool
  block : Block S
  committed : Option (List S)

variable {ι S Rows E : Type}

namespace Block

def execute : Block S → Sql S → Taken S
  | .idle, .begin_ => ⟨true, .opened [], none⟩
  | .idle, .exec s => ⟨true, .idle, some [s]⟩
  | .idle, .commit => ⟨true, .idle, none⟩
  | .idle, .rollback => ⟨true, .idle, none⟩
  | .opened ss, .begin_ => ⟨true, .opened ss, none⟩
  | .opened ss, .exec s => ⟨true, .opened (ss ++ [s]), none⟩
  | .opened ss, .commit => ⟨true, .idle, some ss⟩
  | .opened _, .rollback => ⟨true, .idle, none⟩
  -- COMMIT of a failed block is answered like any other, and rolls it back
  | .failed, .commit => ⟨true, .idle, none⟩
  | .failed, .rollback => ⟨true, .idle, none⟩
  | .failed, _ => ⟨false, .failed, none⟩
  | .closed, _ => ⟨false, .closed, none⟩

/-- ROLLBACK is never refused; COMMIT is where a deferred check fails. -/
def refuse : Block S → Sql S → Taken S
  | b, .rollback => b.execute .rollback
  | .opened _, .commit => ⟨false, .idle, none⟩
  | .opened _, _ => ⟨false, .failed, none⟩
  | .failed, .commit => ⟨true, .idle, none⟩
  | b, _ => ⟨false, b, none⟩

def take (b : Block S) (q : Sql S) : Fate → Taken S
  | .done => b.execute q
  | .refused => b.refuse q
  | .broken executed => ⟨false, .closed, if executed then (b.execute q).committed else none⟩

/-- no transaction is open on the connection -/
def Clean (b : Block S) : Prop := b = .idle ∨ b = .closed

variable {b : Block S}

theorem take_begin (fate : Fate) (hb : b.Clean) : (b.take .begin_ fate).committed = none ∧
    if (b.take .begin_ fate).confirmed then (b.take .begin_ fate).block = .opened []
    else (b.take .begin_ fate).block.Clean := by
  rcases hb with rfl | rfl <;> rcases fate with _ | _ | _ | _ <;>
    simp [take, execute, refuse, Clean]

theorem take_rollback (b : Block S) (fate : Fate) :
    (b.take .rollback fate).committed = none ∧ (b.take .rollback fate).block.Clean := by
  rcases b with _ | _ | _ | _ <;> rcases fate with _ | _ | _ | _ <;>
    simp [take, execute, refuse, Clean]

theorem take_exec_opened (ss : List S) (fate : Fate) (s : S) :
    ((Block.opened ss).take (.exec s) fate).committed = none ∧
    if ((Block.opened ss).take (.exec s) fate).confirmed then
      ((Block.opened ss).take (.exec s) fate).block = .opened (ss ++ [s])
    else ((Block.opened ss).take (.exec s) fate).block = .failed ∨
      ((Block.opened ss).take (.exec s) fate).block = .closed := by
  rcases fate with _ | _ | _ | _ <;> simp [take, execute, refuse]

theorem take_exec_over (fate : Fate) (s : S) (hb : b = .failed ∨ b = .closed) :
    (b.take (.exec s) fate).committed = none ∧ (b.take (.exec s) fate).confirmed = false ∧
    ((b.take (.exec s) fate).block = b ∨ (b.take (.exec s) fate).block = .closed) := by
  rcases hb with rfl | rfl <;> rcases fate with _ | _ | _ | _ <;> simp [take, execute, refuse]

theorem take_commit_opened (ss : List S) (fate : Fate) :
    ((Block.opened ss).take .commit fate).block.Clean ∧
    (((Block.opened ss).take .commit fate).committed = some ss ∨
      ((Block.opened ss).take .commit fate).confirmed = false ∧
        ((Block.opened ss).take .commit fate).committed = none) := by
  rcases fate with _ | _ | _ | _ <;> simp [take, execute, refuse, Clean]

theorem take_commit_over (fate : Fate) (hb : b = .failed ∨ b = .closed) :
    (b.take .commit fate).block.Clean ∧ (b.take .commit fate).committed = none ∧
    (b = .closed → (b.take .commit fate).confirmed = false) := by
  rcases hb with rfl | rfl <;> rcases fate with _ | _ | _ | _ <;>
    simp [take, execute, refuse, Clean]

/-- a statement outside a block is a transaction of its own -/
theorem take_exec_clean (fate : Fate) (s : S) (hb : b.Clean) :
    (b.take (.exec s) fate).block.Clean ∧
    ((b.take (.exec s) fate).committed = some [s] ∨
      (b.take (.exec s) fate).confirmed = false ∧ (b.take (.exec s) fate).committed = none) := by
  rcases hb with rfl | rfl <;> rcases fate with _ | _ | _ | _ <;>
    simp [take, execute, refuse, Clean]

end Block

/-- the calls of a pool's clients, with the caller -/
inductive DbCall (ι S : Type) where
  | connect (i : ι)
  | query (i : ι) (c : ℕ) (q : Sql S)
  | release (i : ι) (c : ℕ)
  /-- a statement on whatever connection is free -/
  | poolQuery (i : ι) (s : S)

def DbReply (Rows E : Type) : DbCall ι S → Type
  | .connect _ => Except E ℕ
  | .query .. => Except E Rows
  | .release .. => Unit
  | .poolQuery .. => Except E Rows

/-- the connections, who has checked out which, and what was committed, in order and by whom -/
structure Server (ι S : Type) where
  blocks : ℕ → Block S := fun _ => .idle
  holder : ℕ → Option ι := fun _ => none
  ledger : List (ι × List S) := []

/-- what is left open of an answer; `conn` is the connection that the pool finds, if any -/
structure Luck (Rows E : Type) where
  fate : Fate
  conn : Option ℕ
  rows : Rows
  error : E

namespace Server

def take (s : Server ι S) (k : Luck Rows E) (i : ι) (c : ℕ) (q : Sql S) :
    Except E Rows × Server ι S :=
  let r := (s.blocks c).take q k.fate
  (if r.confirmed then .ok k.rows else .error k.error,
    { s with
      blocks := Function.update s.blocks c r.block
      ledger := s.ledger ++ (r.committed.map fun ss => (i, ss)).toList })

/-- a connection that nobody has -/
def free (s : Server ι S) (k : Luck Rows E) : Option ℕ :=
  k.conn.filter fun c => (s.holder c).isNone

def serve (k : Luck Rows E) (s : Server ι S) : (op : DbCall ι S) → DbReply Rows E op × Server ι S
  | .connect i =>
    match s.free k with
    | none => (.error k.error, s)
    | some c => (.ok c, { s with holder := Function.update s.holder c (some i) })
  | .query i c q => s.take k i c q
  | .release _ c => ((), { s with holder := Function.update s.holder c none })
  | .poolQuery i q =>
    match s.free k with
    | none => (.error k.error, s)
    | some c => s.take k i c (.exec q)

/-- a connection breaks while it is not in use -/
def disconnect (s : Server ι S) (c : ℕ) : Server ι S :=
  { s with blocks := Function.update s.blocks c .closed }

variable [DecidableEq ι]

/-- the transactions of one caller -/
def entries (s : Server ι S) (i : ι) : List (List S) :=
  (s.ledger.filter fun e => e.1 = i).map (·.2)

end Server

end ZTG
