import ZtGateway.Lib.Expiring
import ZtGateway.Sanity.Revocation
import ZtGateway.Spec.TrustScore

/-! The two blacklists that drop an expired entry when they come to read it,
`FingerprintStore` and `TokenRevocationService`, against one that drops nothing: no answer
of any run tells them apart. -/

namespace ZTG

/-! ## `FingerprintStore` -/

/-- a call on the store, or the clock going on -/
inductive BlacklistOp where
  | add (fingerprint : String) (ttlMs : ℚ) (isTerminal : Bool)
  | isBlacklisted (fingerprint : String)
  | isTerminal (fingerprint : String)
  | clear
  | advance (ms : ℕ)

/-- the store with its clock -/
structure BlacklistWorld where
  store : FingerprintStore
  now : ℕ

namespace BlacklistWorld

def step (w : BlacklistWorld) : BlacklistOp → BlacklistWorld
  | .add fp ttlMs isTerminal => { w with store := w.store.add w.now fp ttlMs isTerminal }
  | .isBlacklisted fp => { w with store := (w.store.isBlacklisted w.now fp).2 }
  | .isTerminal fp => { w with store := (w.store.isTerminal w.now fp).2 }
  | .clear => { w with store := w.store.clear }
  | .advance ms => { w with now := w.now + ms }

/-- what a read answers -/
def answer (w : BlacklistWorld) : BlacklistOp → Option Bool
  | .isBlacklisted fp => some (w.store.isBlacklisted w.now fp).1
  | .isTerminal fp => some (w.store.isTerminal w.now fp).1
  | _ => none

/-- a run from a new store, with its answers -/
def run (now : ℕ) (ops : List BlacklistOp) : Logged BlacklistWorld (Option Bool) :=
  runSteps (Logged.next step answer) ⟨⟨{}, now⟩, []⟩ ops

end BlacklistWorld

/-- The abstract blacklist: the last entry of each fingerprint, kept for good. -/
structure Bans where
  entry : String → Option BlacklistEntry
  now : ℕ

namespace Bans

/-- the entry of a fingerprint that is still in force -/
def inForce (b : Bans) (fp : String) : Option BlacklistEntry :=
  unexpired BlacklistEntry.expiresAt b.now (b.entry fp)

def step (b : Bans) : BlacklistOp → Bans
  | .add fp ttlMs isTerminal =>
    { b with entry := Function.update b.entry fp (some ⟨b.now + ttlMs, isTerminal⟩) }
  | .clear => { b with entry := fun _ => none }
  | .advance ms => { b with now := b.now + ms }
  | _ => b

def answer (b : Bans) : BlacklistOp → Option Bool
  | .isBlacklisted fp => some (b.inForce fp).isSome
  | .isTerminal fp => some ((b.inForce fp).any (·.isTerminal))
  | _ => none

def run (now : ℕ) (ops : List BlacklistOp) : Logged Bans (Option Bool) :=
  runSteps (Logged.next step answer) ⟨⟨fun _ => none, now⟩, []⟩ ops

end Bans

namespace FingerprintStore

/-- A read is a read of an expiring map. -/
theorem check_eq (st : FingerprintStore) (now : ℕ) (fp : String) (live : BlacklistEntry → Bool) :
    (st.check now fp live).1 = (unexpired BlacklistEntry.expiresAt now (st.blacklist.get fp)).any live ∧
      (st.check now fp live).2.blacklist.get =
        (fetch BlacklistEntry.expiresAt (now : ℚ) st.blacklist.get fp).2 := by
  rw [← fetch_fst]
  unfold check fetch
  cases st.blacklist.get fp with
  | none => exact ⟨rfl, rfl⟩
  | some entry =>
    by_cases h : entry.expiresAt ≤ (now : ℚ)
    · simp only [h, ↓reduceIte]
      exact ⟨rfl, JsMap.get_delete_eq _ _⟩
    · simp only [h, ↓reduceIte]
      exact ⟨rfl, trivial⟩

/-- the gauge of `MetricsService`: the size that was announced last -/
def gauge (st : FingerprintStore) : ℕ := st.sizes.getLastD 0

@[simp] theorem gauge_emitSize (st : FingerprintStore) : st.emitSize.gauge = st.size := by
  simp [gauge, emitSize, size]

@[simp] theorem size_emitSize (st : FingerprintStore) : st.emitSize.size = st.size := rfl

theorem gauge_check {st : FingerprintStore} (h : st.gauge = st.size) (now : ℕ) (fp : String)
    (live : BlacklistEntry → Bool) :
    (st.check now fp live).2.gauge = (st.check now fp live).2.size := by
  unfold check
  cases st.blacklist.get fp with
  | none => exact h
  | some entry =>
    dsimp only
    split_ifs
    · rw [gauge_emitSize, size_emitSize]
    · exact h

end FingerprintStore

open FingerprintStore

/-- The store and the abstract blacklist tell the same time and look the same from now on, and the
gauge is right. -/
structure BlacklistWorld.Refines (w : BlacklistWorld) (b : Bans) : Prop where
  now : w.now = b.now
  view : ReadAlike BlacklistEntry.expiresAt (b.now : ℚ) w.store.blacklist.get b.entry
  gauge : w.store.gauge = w.store.size

namespace BlacklistWorld.Refines

variable {w : BlacklistWorld} {b : Bans}

theorem check (h : w.Refines b) (fp : String) (live : BlacklistEntry → Bool) :
    (w.store.check w.now fp live).1 = (b.inForce fp).any live ∧
      BlacklistWorld.Refines { w with store := (w.store.check w.now fp live).2 } b := by
  obtain ⟨hanswer, hget⟩ := w.store.check_eq w.now fp live
  refine ⟨?_, h.now, ?_, gauge_check h.gauge _ fp live⟩
  · rw [hanswer, h.now, h.view fp, Bans.inForce]
  · show ReadAlike _ _ (w.store.check w.now fp live).2.blacklist.get b.entry
    rw [hget, h.now]
    exact (h.view.fetch fp).2

theorem step (h : w.Refines b) (op : BlacklistOp) :
    w.answer op = b.answer op ∧ (w.step op).Refines (b.step op) := by
  cases op with
  | add fp ttlMs isTerminal =>
    refine ⟨rfl, h.now, ?_, ?_⟩
    · have hview := h.view.update fp (some ⟨b.now + ttlMs, isTerminal⟩)
      simpa [BlacklistWorld.step, FingerprintStore.add, emitSize, JsMap.get_set_eq, h.now, Bans.step]
        using hview
    · exact gauge_emitSize _
  | isBlacklisted fp =>
    obtain ⟨hanswer, hnext⟩ := h.check fp fun _ => true
    refine ⟨?_, hnext⟩
    rw [BlacklistWorld.answer, FingerprintStore.isBlacklisted, hanswer, Bans.answer]
    cases b.inForce fp <;> rfl
  | isTerminal fp =>
    obtain ⟨hanswer, hnext⟩ := h.check fp (·.isTerminal)
    exact ⟨congrArg some hanswer, hnext⟩
  | clear => exact ⟨rfl, h.now, fun _ => rfl, gauge_emitSize _⟩
  | advance ms =>
    refine ⟨rfl, by simp [BlacklistWorld.step, Bans.step, h.now], ?_, h.gauge⟩
    exact h.view.later (by simp [Bans.step])

end BlacklistWorld.Refines

/-- Eviction is invisible: any run of the store, from any time, answers every read as the abstract
blacklist does, holds every ban in force, and leaves the gauge at the size of the map. -/
theorem FingerprintStore.refines_bans (now : ℕ) (ops : List BlacklistOp) :
    let w := BlacklistWorld.run now ops
    let b := Bans.run now ops
    w.log = b.log ∧ (∀ fp entry, b.state.inForce fp = some entry →
      w.state.store.blacklist.get fp = some entry) ∧
      w.state.store.gauge = w.state.store.size := by
  intro w b
  have hstart : BlacklistWorld.Refines ⟨{}, now⟩ ⟨fun _ => none, now⟩ :=
    ⟨rfl, fun _ => rfl, rfl⟩
  obtain ⟨hlog, hend⟩ := Logged.lockstep (fun _ _ op h => h.step op) hstart [] ops
  refine ⟨hlog, fun fp entry hforce => ?_, hend.gauge⟩
  exact (unexpired_eq_some.mp ((hend.view fp).trans hforce)).1

/-! ## `TokenRevocationService` -/

/-- what a call on the service answers -/
inductive RevocationAnswer where
  | revoke (r : Except Err String)
  | isRevoked (b : Bool)
  | getEntry (entry : Option RevocationEntry)
  | advance

def RevocationState.answer (st : RevocationState) : RevocationOp → RevocationAnswer
  | .revoke user dto => .revoke (AuthController.revoke st user dto).1
  | .isRevoked jti => .isRevoked (st.isRevoked jti).1
  | .getEntry jti => .getEntry (st.getEntry jti).1
  | .advance _ => .advance

def RevocationState.run (now : ℕ) (ops : List RevocationOp) :
    Logged RevocationState RevocationAnswer :=
  runSteps (Logged.next step answer) ⟨init now, []⟩ ops

/-- The abstract list: the last revocation of each token, kept for good. -/
structure Revocations where
  entry : String → Option RevocationEntry
  now : ℕ

namespace Revocations

def inForce (l : Revocations) (jti : String) : Option RevocationEntry :=
  unexpired RevocationEntry.expiresAt l.now (l.entry jti)

/-- who may revoke a token: an admin, and anyone unless another user's revocation is in force -/
def mayRevoke (l : Revocations) (user : UserClaims) (jti : String) : Bool :=
  user.isAdmin || (l.inForce jti).all fun existing => existing.userId = user.userId

def step (l : Revocations) : RevocationOp → Revocations
  | .revoke (some user) dto =>
    if l.mayRevoke user dto.jti then
      { l with entry := Function.update l.entry dto.jti (some ⟨dto.expiresAtMs, user.userId⟩) }
    else l
  | .advance ms => { l with now := l.now + ms }
  | _ => l

def answer (l : Revocations) : RevocationOp → RevocationAnswer
  | .revoke none _ => .revoke (.error (.unauthorized "Missing authenticated user"))
  | .revoke (some user) dto =>
    .revoke (if l.mayRevoke user dto.jti then .ok "Token revoked"
      else .error (.http 403 "Cannot revoke another user's token"))
  | .isRevoked jti => .isRevoked (l.inForce jti).isSome
  | .getEntry jti => .getEntry (l.inForce jti)
  | .advance _ => .advance

def run (now : ℕ) (ops : List RevocationOp) : Logged Revocations RevocationAnswer :=
  runSteps (Logged.next step answer) ⟨⟨fun _ => none, now⟩, []⟩ ops

end Revocations

namespace RevocationState

theorem getEntry_eq (st : RevocationState) (jti : String) :
    (st.getEntry jti).1 = unexpired RevocationEntry.expiresAt (st.now : ℚ) (st.blacklist jti) ∧
      (st.getEntry jti).2 =
        { st with blacklist := (fetch RevocationEntry.expiresAt (st.now : ℚ) st.blacklist jti).2 } := by
  rw [← fetch_fst]
  unfold getEntry fetch
  cases st.blacklist jti with
  | none => exact ⟨rfl, rfl⟩
  | some entry =>
    by_cases h : entry.expiresAt ≤ (st.now : ℚ)
    · simp only [h, ↓reduceIte]
      exact ⟨trivial, rfl⟩
    · simp only [h, ↓reduceIte]
      exact ⟨trivial, trivial⟩

/-- `isRevoked` and `getEntry` read and drop alike. -/
theorem isRevoked_eq (st : RevocationState) (jti : String) :
    (st.isRevoked jti).1 = (st.getEntry jti).1.isSome ∧
      (st.isRevoked jti).2 = (st.getEntry jti).2 := by
  unfold isRevoked getEntry
  cases st.blacklist jti with
  | none => exact ⟨rfl, rfl⟩
  | some entry =>
    dsimp only
    split_ifs
    · exact ⟨rfl, rfl⟩
    · exact ⟨rfl, rfl⟩

end RevocationState

/-- The service and the abstract list tell the same time and look the same from now on. -/
structure RevocationState.Refines (st : RevocationState) (l : Revocations) : Prop where
  now : st.now = l.now
  view : ReadAlike RevocationEntry.expiresAt (l.now : ℚ) st.blacklist l.entry

namespace RevocationState.Refines

variable {st : RevocationState} {l : Revocations}

theorem getEntry (h : st.Refines l) (jti : String) :
    (st.getEntry jti).1 = l.inForce jti ∧ (st.getEntry jti).2.Refines l := by
  obtain ⟨hanswer, hnext⟩ := st.getEntry_eq jti
  rw [hanswer, hnext]
  refine ⟨?_, h.now, ?_⟩
  · rw [h.now, h.view jti, Revocations.inForce]
  · dsimp only
    rw [h.now]
    exact (h.view.fetch jti).2

theorem accept (h : st.Refines l) (jti : String) (expiresAt : ℚ) (userId : String)
    (emitted : List EventName) :
    RevocationState.Refines { st.revoke jti expiresAt userId with emitted := emitted }
      { l with entry := Function.update l.entry jti (some ⟨expiresAt, userId⟩) } :=
  ⟨h.now, h.view.update jti _⟩

/-- A revoke goes through when the abstract list allows it, and only then. -/
theorem revoke (h : st.Refines l) (user : UserClaims) (dto : RevokeTokenDto) :
    st.answer (.revoke (some user) dto) = l.answer (.revoke (some user) dto) ∧
      (st.step (.revoke (some user) dto)).Refines (l.step (.revoke (some user) dto)) := by
  obtain ⟨hlive, hread⟩ := h.getEntry dto.jti
  simp only [RevocationState.answer, RevocationState.step, Revocations.answer, Revocations.step,
    Revocations.mayRevoke, AuthController.revoke]
  by_cases hadmin : user.isAdmin = true
  · simp only [hadmin, Bool.true_or, ↓reduceIte]
    exact ⟨trivial, h.accept _ _ _ _⟩
  · simp only [hadmin, Bool.false_or, ← hlive, Bool.false_eq_true, ↓reduceIte]
    rcases hentry : st.getEntry dto.jti with ⟨_ | existing, st'⟩
    · rw [hentry] at hread
      exact ⟨rfl, hread.accept _ _ _ _⟩
    · rw [hentry] at hread
      by_cases howner : existing.userId = user.userId
      · simp only [howner, Option.all_some, decide_true, ne_eq, not_true_eq_false, ↓reduceIte]
        exact ⟨trivial, hread.accept _ _ _ _⟩
      · simp only [howner, Option.all_some, decide_false, ne_eq, not_false_eq_true, ↓reduceIte,
          Bool.false_eq_true]
        exact ⟨trivial, hread⟩

theorem step (h : st.Refines l) (op : RevocationOp) :
    st.answer op = l.answer op ∧ (st.step op).Refines (l.step op) := by
  cases op with
  | revoke user dto =>
    cases user with
    | none => exact ⟨rfl, h⟩
    | some user => exact h.revoke user dto
  | isRevoked jti =>
    obtain ⟨hlive, hread⟩ := h.getEntry jti
    obtain ⟨hanswer, hnext⟩ := st.isRevoked_eq jti
    refine ⟨?_, ?_⟩
    · rw [RevocationState.answer, hanswer, hlive, Revocations.answer]
    · show (st.isRevoked jti).2.Refines l
      rwa [hnext]
  | getEntry jti =>
    obtain ⟨hlive, hread⟩ := h.getEntry jti
    exact ⟨congrArg RevocationAnswer.getEntry hlive, hread⟩
  | advance ms =>
    refine ⟨rfl, by simp [RevocationState.step, Revocations.step, h.now], ?_⟩
    exact h.view.later (by simp [Revocations.step])

end RevocationState.Refines

/-- a revoke that went through -/
def RevocationAnswer.accepted : RevocationAnswer → Bool
  | .revoke (.ok _) => true
  | _ => false

namespace RevocationState

/-- how many revocations `MetricsService` has counted -/
def counted (st : RevocationState) : ℕ := st.emitted.count .authTokenRevoked

theorem counted_getEntry (st : RevocationState) (jti : String) :
    (st.getEntry jti).2.counted = st.counted := by
  rw [(st.getEntry_eq jti).2, counted, counted]

theorem counted_accept (st : RevocationState) (jti : String) (expiresAt : ℚ) (userId : String) :
    counted { st.revoke jti expiresAt userId with
      emitted := st.emitted ++ [.authTokenRevoked] } = st.counted + 1 := by
  simp [counted]

theorem counted_step (st : RevocationState) (op : RevocationOp) :
    (st.step op).counted = st.counted + if (st.answer op).accepted then 1 else 0 := by
  cases op with
  | revoke user dto =>
    cases user with
    | none => rfl
    | some user =>
      have hread := st.counted_getEntry dto.jti
      simp only [step, answer, AuthController.revoke]
      by_cases hadmin : user.isAdmin = true
      · simp only [hadmin, ↓reduceIte]
        exact st.counted_accept _ _ _
      · simp only [hadmin, Bool.false_eq_true, ↓reduceIte]
        rcases hentry : st.getEntry dto.jti with ⟨_ | existing, st'⟩
        · rw [hentry] at hread
          rw [← hread]
          exact st'.counted_accept _ _ _
        · rw [hentry] at hread
          rw [← hread]
          by_cases howner : existing.userId = user.userId
          · simp only [howner, ne_eq, not_true_eq_false, ↓reduceIte]
            exact st'.counted_accept _ _ _
          · simp only [howner, ne_eq, not_false_eq_true, ↓reduceIte]
            rfl
  | isRevoked jti =>
    show (st.isRevoked jti).2.counted = st.counted + 0
    rw [(st.isRevoked_eq jti).2, st.counted_getEntry, add_zero]
  | getEntry jti => exact st.counted_getEntry jti
  | advance ms => rfl

end RevocationState

/-- Any run of the service, from any time, answers every revoke, check and lookup as a list that
forgets nothing does, and counts each accepted revoke once. -/
theorem RevocationState.refines_revocations (now : ℕ) (ops : List RevocationOp) :
    let w := RevocationState.run now ops
    w.log = (Revocations.run now ops).log ∧
      w.state.counted = w.log.countP RevocationAnswer.accepted := by
  have hstart : RevocationState.Refines (init now) ⟨fun _ => none, now⟩ := ⟨rfl, fun _ => rfl⟩
  refine ⟨(Logged.lockstep (fun _ _ op h => h.step op) hstart [] ops).1, ?_⟩
  refine runSteps_keeps (I := fun w : Logged RevocationState RevocationAnswer =>
    w.state.counted = w.log.countP RevocationAnswer.accepted) ?_ rfl ops
  intro w op hw
  rw [Logged.next, counted_step, hw, List.countP_append, List.countP_singleton]

end ZTG
