import ZtGateway.Spec.Enrollment

/-! What one segment of an enrollment call can do to the pending entries, the table, the
bus and the record of attempts. -/

namespace ZTG

namespace PendingStore

variable {st st' : Store} {now : ℕ} {id : String} {e : PendingEnrollment}

/-- `st'` is `st`, less some of what has expired by `now`. -/
def Evicts (now : ℕ) (st st' : Store) : Prop :=
  ∀ id, st'.get id = JsMap.get st id ∨
    (st'.get id = none ∧ ∃ e, JsMap.get st id = some e ∧ e.expiresAt ≤ now)

theorem Evicts.refl (now : ℕ) (st : Store) : Evicts now st st := fun _ => .inl rfl

theorem Evicts.delete (h : Evicts now st st') (he : JsMap.get st id = some e)
    (hexp : e.expiresAt ≤ now) : Evicts now st (st'.delete id) := by
  intro id'
  rw [JsMap.get_delete]
  split_ifs with hid
  · subst hid
    exact .inr ⟨rfl, e, he, hexp⟩
  · exact h id'

/-- An entry that is left was there before. -/
theorem Evicts.get_of_get (h : Evicts now st st') (he : JsMap.get st' id = some e) :
    JsMap.get st id = some e := by
  rcases h id with h | ⟨h, -⟩
  · exact h ▸ he
  · rw [h] at he
    cases he

theorem Evicts.get_of_live (h : Evicts now st st') (he : JsMap.get st id = some e)
    (hlive : now < e.expiresAt) : JsMap.get st' id = some e := by
  rcases h id with h | ⟨-, e', he', hexp⟩
  · exact h.trans he
  · obtain rfl : e = e' := Option.some.inj (he.symm.trans he')
    omega

theorem scan_evicts (userId : String) {rest : List (String × PendingEnrollment)}
    (hrest : ∀ x ∈ rest, JsMap.get st x.1 = some x.2) (h : Evicts now st st') :
    Evicts now st (scan now userId rest st').2 := by
  induction rest generalizing st' with
  | nil => exact h
  | cons x rest ih =>
    obtain ⟨id, e⟩ := x
    have htail : ∀ x ∈ rest, JsMap.get st x.1 = some x.2 := fun x hx => hrest x (by simp [hx])
    unfold scan
    split_ifs with hexp
    · exact ih htail (h.delete (hrest (id, e) (by simp)) hexp)
    · exact h
    · exact ih htail h

theorem hasPendingForUser_evicts (st : Store) (now : ℕ) (userId : String) :
    Evicts now st (hasPendingForUser st now userId).2 :=
  scan_evicts userId (fun _ hx => JsMap.get_eq_some.mpr hx) (.refl now st)

/-- one more wrong code for the entry, which goes if that was the last one allowed -/
def strike (st : Store) (id : String) (e : PendingEnrollment) : Store :=
  if ENROLL_MAX_ATTEMPTS ≤ e.attempts + 1 then
    (st.set id { e with attempts := e.attempts + 1 }).delete id
  else st.set id { e with attempts := e.attempts + 1 }

theorem get_strike_self : (strike st id e).get id =
    if ENROLL_MAX_ATTEMPTS ≤ e.attempts + 1 then none
    else some { e with attempts := e.attempts + 1 } := by
  unfold strike
  split_ifs <;> simp

theorem get_strike_ne {id' : String} (h : id' ≠ id) : (strike st id e).get id' = st.get id' := by
  unfold strike
  split_ifs
  · rw [JsMap.get_delete_ne h, JsMap.get_set_ne h]
  · exact JsMap.get_set_ne h

end PendingStore

open PendingStore (Evicts strike)

variable {ι : Type} {svc : EnrollDeps} {calls : ι → EnrollCall} {i : ι} {k : EnrollStep}
  {l l' : EnrollPhase} {st st' : EnrollState ι}

/-- the two events of a wrong code -/
def isSignal (e : EventName × ThreatSignalPayload) : Bool :=
  e.1 = .mfaFailed || e.1 = .mfaRateLimited

def Attempt.isWrong (a : Attempt ι) : Bool := a.compared.any fun c => !c.ok

def Attempt.count (a : Attempt ι) (event : EventName) : ℕ := a.emitted.countP fun e => e.1 = event

/-- phases that neither carry a secret nor report success -/
def EnrollPhase.Plain : EnrollPhase → Prop
  | .saving _ _ | .saved | .returned .confirmed => False
  | _ => True

/-- Call `i` finds a live entry of its own user, and its code verifies against the entry's
secret as `c` says. -/
structure Compares (svc : EnrollDeps) (calls : ι → EnrollCall) (i : ι) (t : Ticks)
    (st : EnrollState ι) (id : String) (c : Comparison) : Prop where
  held : st.pending.get id = some c.entry
  live : st.now + t.get < c.entry.expiresAt
  owner : c.entry.userId = (calls i).userId
  verdict : ∃ code userId ip ja4h, calls i = .confirm id code userId ip ja4h ∧
    totpVerify svc.crypto.toCrypto c.now code c.entry.secret = .ok c.ok

/-- everything a segment of call `i` can do -/
inductive Does (svc : EnrollDeps) (calls : ι → EnrollCall) (i : ι) :
    EnrollStep → EnrollPhase → EnrollState ι → EnrollPhase → EnrollState ι → Prop
  /-- time passes, and what has expired may go -/
  | swept (k : EnrollStep) (l l' : EnrollPhase) (st : EnrollState ι) (dt : ℕ)
      (pending : PendingStore.Store) (hl : l' = l ∨ l'.Plain)
      (hev : Evicts (st.now + dt) st.pending pending) :
      Does svc calls i k l st l' { st.advance dt with pending := pending }
  /-- an event other than the two signals -/
  | told (k : EnrollStep) (l l' : EnrollPhase) (st : EnrollState ι) (dt : ℕ) (event : EventName)
      (payload : ThreatSignalPayload) (hl : l'.Plain) (hev : isSignal (event, payload) = false) :
      Does svc calls i k l st l' ((st.advance dt).emit event payload)
  | created (dt : ℕ) (id : String) (bytes : Buffer) (existing : Option String)
      (st : EnrollState ι) (r : EnrollResult) (hr : (EnrollPhase.returned r).Plain)
      (hcall : ∃ userEmail, calls i = .create (calls i).userId userEmail)
      (hex : existing.getD "" = "") :
      Does svc calls i (.resume dt id bytes) (.read existing) st (.returned r)
        (let entry := newEntry svc (calls i).userId (base32Encode bytes) (st.now + dt)
         { st.advance dt with pending := st.pending.set id entry,
                              issued := st.issued ++ [(id, entry)] })
  /-- no entry, or none that is still live -/
  | missed (t : Ticks) (iv : Iv) (st : EnrollState ι) (id : String) (pending : PendingStore.Store)
      (hcall : ∃ code userId ip ja4h, calls i = .confirm id code userId ip ja4h)
      (hev : Evicts (st.now + t.get) st.pending pending) :
      Does svc calls i (.begin_ t iv) .idle st (.returned .expiredEnrollment)
        ({ st.advance t.get with pending := pending }.attempt
          { call := i, enrollmentId := id })
  /-- an entry, but no verdict on the code or no ciphertext of the secret -/
  | spared (t : Ticks) (iv : Iv) (st : EnrollState ι) (dt : ℕ) (a : Attempt ι) (r : EnrollResult)
      (hr : (EnrollPhase.returned r).Plain) (ha : a.call = i)
      (hheld : ∃ e, st.pending.get a.enrollmentId = some e)
      (hcompared : ∀ c, a.compared = some c →
        c.ok = true ∧ Compares svc calls i t st a.enrollmentId c)
      (hquiet : ∀ x ∈ a.emitted, isSignal x = false) :
      Does svc calls i (.begin_ t iv) .idle st (.returned r) ((st.advance dt).attempt a)
  | struck (t : Ticks) (iv : Iv) (st : EnrollState ι) (dt : ℕ) (a : Attempt ι) (c : Comparison)
      (ha : a.call = i) (hc : a.compared = some c) (hwrong : c.ok = false)
      (hcompares : Compares svc calls i t st a.enrollmentId c)
      (hfailed : a.count .mfaFailed = 1)
      (hlimited : a.count .mfaRateLimited =
        if ENROLL_MAX_ATTEMPTS ≤ c.entry.attempts + 1 then 1 else 0) :
      Does svc calls i (.begin_ t iv) .idle st (.returned .invalidTotp)
        ({ st.advance dt with pending := strike st.pending a.enrollmentId c.entry }.attempt a)
  | verified (t : Ticks) (iv : Iv) (st : EnrollState ι) (dt : ℕ) (id encrypted : String)
      (c : Comparison) (hok : c.ok = true) (hcompares : Compares svc calls i t st id c)
      (henc : aesGcmEncrypt svc.crypto c.entry.secret svc.cfg.encryptionKey iv = some encrypted) :
      Does svc calls i (.begin_ t iv) .idle st (.saving c.entry encrypted)
        ((st.advance dt).attempt { call := i, enrollmentId := id, compared := some c })
  | wrote (outcome : QueryOutcome) (st : EnrollState ι) (e : PendingEnrollment)
      (encrypted : String) (hcall : ∃ id code userId ip ja4h,
        calls i = .confirm id code userId ip ja4h) :
      Does svc calls i (.query outcome) (.saving e encrypted) st
        (if outcome = .done then .saved else .saveFailed)
        (outcome.apply st (st.mfa.saveSecret (calls i).userId encrypted))
  | confirmed (dt : ℕ) (id : String) (bytes : Buffer) (st : EnrollState ι) (id' : String)
      (payload : ThreatSignalPayload)
      (hcall : ∃ code userId ip ja4h, calls i = .confirm id' code userId ip ja4h) :
      Does svc calls i (.resume dt id bytes) .saved st (.returned .confirmed)
        (({ st.advance dt with pending := st.pending.delete id' }).emit .mfaEnrollmentConfirmed
          payload)
  | removed (outcome : QueryOutcome) (st : EnrollState ι) (l' : EnrollPhase) (hl : l'.Plain)
      (hcall : calls i = .delete (calls i).userId) :
      Does svc calls i (.query outcome) .deleting st l'
        (outcome.apply st (st.mfa.deleteSecret (calls i).userId))

theorem EnrollState.advance_advance (st : EnrollState ι) (dt dt' : ℕ) :
    (st.advance dt).advance dt' = st.advance (dt + dt') := by
  simp only [advance, Nat.add_assoc]

/-- A call that only moves on. -/
theorem Does.moved (hl : l'.Plain) : Does svc calls i k l st l' st :=
  .swept k l l' st 0 st.pending (.inr hl) (.refl _ _)

theorem createBegin_does (userId : String) (t : Ticks) (st : EnrollState ι) :
    Does svc calls i k l st (createBegin userId t st).1 (createBegin userId t st).2 := by
  refine .swept k l _ st t.get _ (.inr ?_) (PendingStore.hasPendingForUser_evicts _ _ userId)
  show EnrollPhase.Plain (if _ then _ else _)
  split_ifs <;> trivial

theorem createResume_does {userId : String} {userEmail existing : Option String} (dt : ℕ)
    (id : String) (bytes : Buffer) (hcall : calls i = .create userId userEmail) :
    Does svc calls i (.resume dt id bytes) (.read existing) st
      (createResume svc userId userEmail existing dt id bytes st).1
      (createResume svc userId userEmail existing dt id bytes st).2 := by
  have huser : (calls i).userId = userId := by rw [hcall]; rfl
  unfold createResume
  split_ifs with hex
  · exact .moved trivial
  · subst huser
    exact .created dt id bytes existing st _ trivial ⟨userEmail, hcall⟩ (not_not.mp hex)

/-- The counter that is compared with the bound is that of the entry just found. -/
theorem wrongCode_eq {id : String} {c : Comparison} (h : st.pending.get id = some c.entry)
    (userId : String) (ip ja4h : Option String) (t : Ticks) :
    ∃ dt emitted, wrongCode i id userId ip ja4h t c st = (.returned .invalidTotp,
        { st.advance dt with pending := strike st.pending id c.entry }.attempt
          { call := i, enrollmentId := id, compared := some c, emitted := emitted }) ∧
      emitted.countP (fun x => x.1 = .mfaFailed) = 1 ∧
      emitted.countP (fun x => x.1 = .mfaRateLimited) =
        if ENROLL_MAX_ATTEMPTS ≤ c.entry.attempts + 1 then 1 else 0 := by
  unfold wrongCode
  simp only [EnrollState.advance, PendingStore.incrementAttempts, h]
  unfold strike
  split_ifs with hmax
  · exact ⟨t.failed + t.limited, _, by rw [Nat.add_assoc], by simp, by simp⟩
  · exact ⟨t.failed, _, rfl, by simp, by simp⟩

theorem confirmThrew_does {id userId : String} {t : Ticks} {iv : Iv} {dt : ℕ}
    {compared : Option Comparison} (hheld : ∃ e, st.pending.get id = some e)
    (hcompared : ∀ c, compared = some c → c.ok = true ∧ Compares svc calls i t st id c) :
    Does svc calls i (.begin_ t iv) .idle st
      (confirmThrew i id userId t compared (st.advance dt)).1
      (confirmThrew i id userId t compared (st.advance dt)).2 := by
  unfold confirmThrew
  rw [EnrollState.advance_advance]
  refine .spared t iv st _ _ .internal trivial rfl hheld hcompared ?_
  intro x hx
  rw [List.mem_singleton.mp hx]
  rfl

theorem confirmBegin_does {id code userId : String} {ip ja4h : Option String} (t : Ticks) (iv : Iv)
    (hcall : calls i = .confirm id code userId ip ja4h) :
    Does svc calls i (.begin_ t iv) .idle st
      (confirmBegin svc i id code userId ip ja4h t iv st).1
      (confirmBegin svc i id code userId ip ja4h t iv st).2 := by
  unfold confirmBegin
  simp only [PendingStore.get]
  rcases hget : (st.advance t.get).pending.get id with _ | e
  · exact .missed t iv st id st.pending ⟨code, userId, ip, ja4h, hcall⟩ (.refl _ _)
  dsimp only
  split_ifs with hexp
  · exact .missed t iv st id (st.pending.delete id) ⟨code, userId, ip, ja4h, hcall⟩
      ((Evicts.refl _ _).delete hget hexp)
  dsimp only
  split_ifs with howner
  · refine .spared t iv st t.get _ .userMismatch trivial rfl ⟨e, hget⟩ ?_ ?_
    · simp
    · simp
  rw [EnrollState.advance_advance]
  have hcompares : ∀ ok, totpVerify svc.crypto.toCrypto (st.advance (t.get + t.verify)).now code
      e.secret = .ok ok → Compares svc calls i t st id
        ⟨e, (st.advance (t.get + t.verify)).now, ok⟩ := by
    intro ok hv
    refine ⟨hget, not_le.mp hexp, ?_, code, userId, ip, ja4h, hcall, hv⟩
    rw [hcall]
    exact not_not.mp howner
  rcases hv : totpVerify svc.crypto.toCrypto (st.advance (t.get + t.verify)).now code e.secret with
    err | ok
  · exact confirmThrew_does ⟨e, hget⟩ (by simp)
  cases ok with
  | false =>
    obtain ⟨dt, emitted, heq, hfailed, hlimited⟩ := @wrongCode_eq ι i
      (st.advance (t.get + t.verify)) id ⟨e, (st.advance (t.get + t.verify)).now, false⟩ hget
      userId ip ja4h t
    dsimp only
    rw [heq, EnrollState.advance_advance]
    exact .struck t iv st _
      { call := i, enrollmentId := id, compared := some ⟨e, _, false⟩, emitted := emitted } _
      rfl rfl rfl (hcompares false hv) hfailed hlimited
  | true =>
    dsimp only
    rcases henc : aesGcmEncrypt svc.crypto e.secret svc.cfg.encryptionKey iv with _ | encrypted
    · refine confirmThrew_does ⟨e, hget⟩ fun c hc => ?_
      obtain rfl := Option.some.inj hc
      exact ⟨rfl, hcompares true hv⟩
    · exact .verified t iv st _ id encrypted _ rfl (hcompares true hv) henc

theorem enrollAct_does (h : enrollAct svc calls i k l st = some (l', st')) :
    Does svc calls i k l st l' st' := by
  unfold enrollAct at h
  split at h
  · cases h
    exact .swept _ _ _ _ _ _ (.inl rfl) (.refl _ _)
  · cases h
    exact createBegin_does _ _ _
  · cases h
    exact .moved trivial
  · cases h
    exact .moved trivial
  · obtain ⟨rfl, rfl⟩ := Prod.ext_iff.mp (Option.some.inj h)
    exact createResume_does _ _ _ ‹_›
  · cases h
    exact .told _ _ _ _ _ _ _ trivial rfl
  · obtain ⟨rfl, rfl⟩ := Prod.ext_iff.mp (Option.some.inj h)
    exact confirmBegin_does _ _ ‹_›
  · rename_i outcome e encrypted id code userId ip ja4h hcall
    cases h
    have huser : userId = (calls i).userId := by rw [hcall]; rfl
    rw [huser]
    exact .wrote outcome st e encrypted ⟨id, code, userId, ip, ja4h, hcall⟩
  · cases h
    exact .confirmed _ _ _ _ _ _ ⟨_, _, _, _, ‹_›⟩
  · cases h
    exact .told _ _ _ _ _ _ _ trivial rfl
  · cases h
    exact .moved trivial
  · rename_i outcome userId hcall
    cases h
    have huser : userId = (calls i).userId := by rw [hcall]; rfl
    rw [huser] at hcall ⊢
    refine .removed outcome st _ ?_ hcall
    split_ifs <;> trivial
  · cases h
    exact .told _ _ _ _ _ _ _ trivial rfl
  · cases h
    exact .told _ _ _ _ _ _ _ trivial rfl
  · cases h

/-- Nothing that was recorded is forgotten. -/
structure EnrollState.Grows (st st' : EnrollState ι) : Prop where
  now : st.now ≤ st'.now
  issued : st.issued <+: st'.issued
  attempts : st.attempts <+: st'.attempts

theorem EnrollState.Grows.refl (st : EnrollState ι) : st.Grows st :=
  ⟨le_rfl, List.prefix_refl _, List.prefix_refl _⟩

theorem Does.grows (h : Does svc calls i k l st l' st') : st.Grows st' := by
  cases h with
  | swept | told | confirmed =>
    exact ⟨Nat.le_add_right _ _, List.prefix_refl _, List.prefix_refl _⟩
  | created => exact ⟨Nat.le_add_right _ _, List.prefix_append _ _, List.prefix_refl _⟩
  | missed | spared | struck | verified =>
    exact ⟨Nat.le_add_right _ _, List.prefix_refl _, List.prefix_append _ _⟩
  | wrote outcome | removed outcome =>
    unfold QueryOutcome.apply
    split_ifs
    · exact .refl st
    · exact ⟨le_rfl, List.prefix_refl _, List.prefix_refl _⟩

variable [DecidableEq ι]

theorem enrollStep_cases (svc : EnrollDeps) (calls : ι → EnrollCall) (p : EnrollPool ι)
    (m : ι × EnrollStep) : enrollStep svc calls p m = p ∨
      ∃ l st, Does svc calls m.1 m.2 (p.locals m.1) p.shared l st ∧
        enrollStep svc calls p m = ⟨st, Function.update p.locals m.1 l⟩ := by
  rcases Pool.step_cases (enrollAct svc calls) p m with heq | ⟨l, st, hact, heq⟩
  · exact .inl heq
  · exact .inr ⟨l, st, enrollAct_does hact, heq⟩

theorem enrollStep_grows (svc : EnrollDeps) (calls : ι → EnrollCall) (p : EnrollPool ι)
    (m : ι × EnrollStep) : p.shared.Grows (enrollStep svc calls p m).shared := by
  rcases enrollStep_cases svc calls p m with heq | ⟨l, st, hdoes, heq⟩
  · rw [heq]
    exact .refl _
  · rw [heq]
    exact hdoes.grows

end ZTG
