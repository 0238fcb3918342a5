import ZtGateway.Lib.Base64
import ZtGateway.Lib.Utf8
import ZtGateway.Sanity.Enrollment

/-! The brute-force bound on enrollments. The counter of a pending entry is the number of
wrong codes the attempts on its id record: an id is drawn once, so its entry is never
replaced by a fresh one, and the wrong code that reaches the bound takes the entry away. -/

namespace ZTG

open PendingStore (Evicts strike get_strike_self get_strike_ne)

variable {ι : Type} {svc : EnrollDeps} {calls : ι → EnrollCall} {i j : ι} {k : EnrollStep}
  {l l' : EnrollPhase} {st st' : EnrollState ι} {id : String}

namespace EnrollState

/-- the wrong codes that were compared with the secret of `id` -/
def wrong (st : EnrollState ι) (id : String) : ℕ :=
  st.attempts.countP fun a => a.enrollmentId = id && a.isWrong

/-- the `MFA_RATE_LIMITED` events of the attempts on `id` -/
def limited (st : EnrollState ι) (id : String) : ℕ :=
  ((st.attempts.filter fun a => a.enrollmentId = id).map fun a => a.count .mfaRateLimited).sum

/-- `e` is the entry that was made under `id`, its counter apart. -/
def Issued (st : EnrollState ι) (id : String) (e : PendingEnrollment) : Prop :=
  ∃ e₀, (id, e₀) ∈ st.issued ∧ e = { e₀ with attempts := e.attempts }

theorem wrong_attempt (st : EnrollState ι) (a : Attempt ι) (id : String) :
    (st.attempt a).wrong id = st.wrong id + if a.enrollmentId = id ∧ a.isWrong then 1 else 0 := by
  simp [wrong, attempt, List.countP_append, List.countP_singleton]

theorem limited_attempt (st : EnrollState ι) (a : Attempt ι) (id : String) :
    (st.attempt a).limited id =
      st.limited id + if a.enrollmentId = id then a.count .mfaRateLimited else 0 := by
  by_cases h : a.enrollmentId = id
  · simp [limited, attempt, List.filter_append, h]
  · simp [limited, attempt, List.filter_append, h]

theorem Issued.mono {e : PendingEnrollment} (h : st.Issued id e)
    (hissued : st.issued <+: st'.issued) : st'.Issued id e := by
  obtain ⟨e₀, he₀, he⟩ := h
  exact ⟨e₀, hissued.subset he₀, he⟩

theorem Grows.wrong_le (hg : Grows st st') (id : String) : st.wrong id ≤ st'.wrong id :=
  hg.attempts.sublist.countP_le

end EnrollState

open EnrollState (Grows Issued wrong_attempt limited_attempt)

/-- The id a new entry goes under has not been drawn before. -/
def FreshEnrollment (st : EnrollState ι) : EnrollStep → EnrollPhase → Prop
  | .resume _ id _, .read existing => existing.getD "" = "" → id ∉ st.issued.map Prod.fst
  | _, _ => True

instance FreshEnrollment.decidable (st : EnrollState ι) : ∀ k l, Decidable (FreshEnrollment st k l)
  | .resume _ _ _, .read _ => inferInstanceAs (Decidable (_ → _))
  | .begin_ _ _, _ | .query _, _ | .tick _, _ => .isTrue trivial
  | .resume _ _ _, .idle | .resume _ _ _, .reading | .resume _ _ _, .readFailed
  | .resume _ _ _, .saving _ _ | .resume _ _ _, .saved | .resume _ _ _, .saveFailed
  | .resume _ _ _, .deleting | .resume _ _ _, .deleted _ | .resume _ _ _, .deleteFailed
  | .resume _ _ _, .returned _ => .isTrue trivial

/-- the entry of one id against the record -/
structure Tally (st : EnrollState ι) (id : String) : Prop where
  held : ∀ e, st.pending.get id = some e →
    e.attempts = st.wrong id ∧ st.wrong id < ENROLL_MAX_ATTEMPTS ∧ st.Issued id e
  bound : st.wrong id ≤ ENROLL_MAX_ATTEMPTS
  unissued : id ∉ st.issued.map Prod.fst → st.wrong id = 0
  limited : st.limited id = if st.wrong id = ENROLL_MAX_ATTEMPTS then 1 else 0

/-- A step that puts no entry under `id` and records nothing against it. -/
theorem Tally.frame (h : Tally st id) (hissued : st.issued <+: st'.issued)
    (hpending : ∀ e, st'.pending.get id = some e → st.pending.get id = some e)
    (hwrong : st'.wrong id = st.wrong id) (hlimited : st'.limited id = st.limited id) :
    Tally st' id where
  held e he := by
    obtain ⟨hattempts, hlt, he⟩ := h.held e (hpending e he)
    rw [hwrong]
    exact ⟨hattempts, hlt, he.mono hissued⟩
  bound := hwrong ▸ h.bound
  unissued hid := by
    rw [hwrong]
    exact h.unissued fun hmem => hid ((hissued.map Prod.fst).subset hmem)
  limited := by rw [hwrong, hlimited, h.limited]

/-- The clock, the table and the evictions are not on the record. -/
theorem Tally.kept (h : Tally st id) (hissued : st'.issued = st.issued)
    (hattempts : st'.attempts = st.attempts)
    (hpending : ∀ e, st'.pending.get id = some e → st.pending.get id = some e) : Tally st' id := by
  refine h.frame (hissued ▸ List.prefix_refl _) hpending ?_ ?_
  · rw [EnrollState.wrong, hattempts]
    rfl
  · rw [EnrollState.limited, hattempts]
    rfl

/-- An attempt on another id, or one that is no strike. -/
theorem Tally.attempt {a : Attempt ι} (h : Tally st id) (hissued : st'.issued = st.issued)
    (hattempts : st'.attempts = st.attempts)
    (hpending : ∀ e, st'.pending.get id = some e → st.pending.get id = some e)
    (hwrong : a.enrollmentId = id → a.isWrong = false)
    (hlimited : a.enrollmentId = id → a.count .mfaRateLimited = 0) :
    Tally (st'.attempt a) id := by
  refine (h.kept hissued hattempts hpending).frame (List.prefix_refl _) (fun _ he => he) ?_ ?_
  · rw [wrong_attempt, if_neg, add_zero]
    rintro ⟨hid, ha⟩
    simp [hwrong hid] at ha
  · rw [limited_attempt]
    split_ifs with hid
    · rw [hlimited hid]
      rfl
    · rfl

theorem Attempt.isWrong_of_ok {a : Attempt ι} (h : ∀ c, a.compared = some c → c.ok = true) :
    a.isWrong = false := by
  unfold isWrong
  cases hc : a.compared with
  | none => rfl
  | some c => simp [h c hc]

theorem Attempt.count_of_quiet {a : Attempt ι} {event : EventName}
    (h : ∀ x ∈ a.emitted, isSignal x = false)
    (hevent : ∀ payload, isSignal (event, payload) = true) : a.count event = 0 := by
  refine List.countP_eq_zero.mpr fun x hx hx' => ?_
  obtain ⟨event', payload⟩ := x
  obtain rfl : event' = event := by simpa using hx'
  simpa [hevent payload] using h _ hx

/-- The strike: the counter goes up with the record, and at the bound the entry goes. -/
theorem Tally.struck {a : Attempt ι} {e : PendingEnrollment} (h : Tally st a.enrollmentId)
    (hheld : st.pending.get a.enrollmentId = some e) (dt : ℕ) (hwrong : a.isWrong = true)
    (hlimited : a.count .mfaRateLimited = if ENROLL_MAX_ATTEMPTS ≤ e.attempts + 1 then 1 else 0) :
    Tally ({ st.advance dt with pending := strike st.pending a.enrollmentId e }.attempt a)
      a.enrollmentId := by
  obtain ⟨hattempts, hlt, e₀, he₀, he⟩ := h.held e hheld
  have hlim := h.limited
  rw [if_neg (by omega)] at hlim
  generalize hst' : ({ st.advance dt with pending := strike st.pending a.enrollmentId e } :
    EnrollState ι) = st'
  have hpending : st'.pending = strike st.pending a.enrollmentId e := by rw [← hst']
  have hissued : st'.issued = st.issued := by rw [← hst']; rfl
  have hcount : (st'.attempt a).wrong a.enrollmentId = st.wrong a.enrollmentId + 1 := by
    rw [wrong_attempt, if_pos ⟨rfl, hwrong⟩, ← hst']
    rfl
  refine ⟨fun e' he' => ?_, by omega, fun hid => ?_, ?_⟩
  · rw [hcount]
    change st'.pending.get a.enrollmentId = some e' at he'
    rw [hpending, get_strike_self] at he'
    split_ifs at he' with hmax
    cases he'
    exact ⟨by rw [← hattempts], by omega, e₀, hissued.symm ▸ he₀, by rw [he]⟩
  · exact absurd (List.mem_map_of_mem (hissued.symm ▸ he₀)) hid
  · have hsame : st'.limited a.enrollmentId = st.limited a.enrollmentId := by rw [← hst']; rfl
    rw [hcount, limited_attempt, if_pos rfl, hlimited, hsame, hlim, zero_add]
    exact if_congr (by omega) rfl rfl

theorem Tally.created (h : Tally st id) (dt : ℕ) {id' : String} {e : PendingEnrollment}
    (hfresh : id' ∉ st.issued.map Prod.fst) (he : e.attempts = 0) :
    Tally { st.advance dt with pending := st.pending.set id' e, issued := st.issued ++ [(id', e)] }
      id := by
  by_cases hid : id = id'
  · subst hid
    have hzero := h.unissued hfresh
    refine ⟨fun e' he' => ?_, h.bound, fun _ => hzero, h.limited⟩
    change (st.pending.set id e).get id = some e' at he'
    rw [JsMap.get_set_self] at he'
    cases he'
    refine ⟨he.trans hzero.symm, ?_, e, by simp, rfl⟩
    exact hzero.trans_lt (by decide)
  · refine h.frame (List.prefix_append _ _) ?_ rfl rfl
    intro e' he'
    exact (JsMap.get_set_ne hid).symm.trans he'

theorem Does.tally (h : Does svc calls i k l st l' st') (hfresh : FreshEnrollment st k l)
    (ht : Tally st id) : Tally st' id := by
  cases h with
  | swept _ _ _ _ dt pending hl hev => exact ht.kept rfl rfl fun _ he => hev.get_of_get he
  | told => exact ht.kept rfl rfl fun _ he => he
  | created dt id' bytes existing _ r hr hcall hex => exact ht.created dt (hfresh hex) rfl
  | missed t iv _ id' pending hcall hev =>
    refine ht.attempt rfl rfl (fun _ he => hev.get_of_get he) ?_ ?_
    · exact fun _ => rfl
    · exact fun _ => rfl
  | spared t iv _ dt a r hr ha hheld hcompared hquiet =>
    refine ht.attempt rfl rfl (fun _ he => he) ?_ ?_
    · exact fun _ => Attempt.isWrong_of_ok fun c hc => (hcompared c hc).1
    · exact fun _ => Attempt.count_of_quiet hquiet fun _ => rfl
  | struck t iv _ dt a c ha hc hwrong hcompares hfailed hlimited =>
    by_cases hid : id = a.enrollmentId
    · subst hid
      exact ht.struck hcompares.held dt (by simp [Attempt.isWrong, hc, hwrong]) hlimited
    · refine ht.attempt rfl rfl (fun _ he => (get_strike_ne hid).symm.trans he) ?_ ?_
      · exact fun h => absurd h.symm hid
      · exact fun h => absurd h.symm hid
  | verified t iv _ dt id' encrypted c hok hcompares henc =>
    refine ht.attempt rfl rfl (fun _ he => he) ?_ ?_
    · exact fun _ => by simp [Attempt.isWrong, hok]
    · exact fun _ => rfl
  | wrote outcome | removed outcome =>
    unfold QueryOutcome.apply
    split_ifs
    · exact ht
    · exact ht.kept rfl rfl fun _ he => he
  | confirmed dt id' bytes _ id'' =>
    refine ht.kept rfl rfl fun e he => ?_
    change (st.pending.delete id'').get id = some e at he
    rw [JsMap.get_delete] at he
    split_ifs at he
    exact he

/-- What is recorded of an attempt: one `MFA_FAILED` for a wrong code and none otherwise, and a
comparison only with an entry that was made for the user of the call. -/
structure Genuine (svc : EnrollDeps) (calls : ι → EnrollCall) (st : EnrollState ι)
    (a : Attempt ι) : Prop where
  failed : a.count .mfaFailed = if a.isWrong then 1 else 0
  compared : ∀ c, a.compared = some c → c.entry.userId = (calls a.call).userId ∧
    st.Issued a.enrollmentId c.entry ∧ ∃ code userId ip ja4h,
      calls a.call = .confirm a.enrollmentId code userId ip ja4h ∧
      totpVerify svc.crypto.toCrypto c.now code c.entry.secret = .ok c.ok

theorem Genuine.mono {a : Attempt ι} (h : Genuine svc calls st a)
    (hissued : st.issued <+: st'.issued) : Genuine svc calls st' a where
  failed := h.failed
  compared c hc := by
    obtain ⟨howner, he, hverdict⟩ := h.compared c hc
    exact ⟨howner, he.mono hissued, hverdict⟩

/-- The two signals on the bus are those of the attempts, in their order. -/
def Heard (st : EnrollState ι) : Prop :=
  st.mfa.emitted.filter isSignal = (st.attempts.flatMap (·.emitted)).filter isSignal

/-- what the record and the store tell of each other -/
structure EnrollInv (svc : EnrollDeps) (calls : ι → EnrollCall) (st : EnrollState ι) : Prop where
  tally : ∀ id, Tally st id
  ids : (st.issued.map Prod.fst).Nodup
  genuine : ∀ a ∈ st.attempts, Genuine svc calls st a
  heard : Heard st

theorem Does.heard (h : Does svc calls i k l st l' st') (hh : Heard st) : Heard st' := by
  have hattempt : ∀ (st' : EnrollState ι) (a : Attempt ι), st'.mfa = st.mfa →
      st'.attempts = st.attempts → Heard (st'.attempt a) := by
    intro st' a hmfa hattempts
    unfold Heard at hh ⊢
    simp only [EnrollState.attempt, hmfa, hattempts, List.filter_append, List.flatMap_append, hh]
    simp
  have hemit : ∀ (st' : EnrollState ι) (event : EventName) (payload : ThreatSignalPayload),
      st'.mfa = st.mfa → st'.attempts = st.attempts → isSignal (event, payload) = false →
      Heard (st'.emit event payload) := by
    intro st' event payload hmfa hattempts hquiet
    unfold Heard at hh ⊢
    simp [EnrollState.emit, MfaState.emit, hmfa, hattempts, List.filter_append, hh, hquiet]
  cases h with
  | swept | created => exact hh
  | told _ _ _ _ dt event payload hl hev => exact hemit _ _ _ rfl rfl hev
  | missed | spared | struck | verified => exact hattempt _ _ rfl rfl
  | wrote outcome | removed outcome =>
    unfold QueryOutcome.apply
    split_ifs
    · exact hh
    · exact hh
  | confirmed => exact hemit _ _ _ rfl rfl rfl

theorem Does.ids (h : Does svc calls i k l st l' st') (hfresh : FreshEnrollment st k l)
    (hn : (st.issued.map Prod.fst).Nodup) : (st'.issued.map Prod.fst).Nodup := by
  cases h with
  | created dt id bytes existing _ r hr hcall hex =>
    rw [List.map_append]
    exact hn.append (List.nodup_singleton id) (by simpa using hfresh hex)
  | wrote outcome | removed outcome =>
    unfold QueryOutcome.apply
    split_ifs
    · exact hn
    · exact hn
  | swept | told | missed | spared | struck | verified | confirmed => exact hn

theorem EnrollInv.genuine_of_compares {a : Attempt ι} (t : Ticks)
    (hi : EnrollInv svc calls st) (ha : a.call = i) (hfailed : a.count .mfaFailed = if a.isWrong then 1 else 0)
    (h : ∀ c, a.compared = some c → Compares svc calls i t st a.enrollmentId c) :
    Genuine svc calls st a where
  failed := hfailed
  compared c hc := by
    subst ha
    have hcompares := h c hc
    exact ⟨hcompares.owner, ((hi.tally _).held _ hcompares.held).2.2, hcompares.verdict⟩

theorem Does.genuine (h : Does svc calls i k l st l' st') (hi : EnrollInv svc calls st) :
    ∀ a ∈ st'.attempts, Genuine svc calls st' a := by
  have hkept : ∀ st' : EnrollState ι, st'.attempts = st.attempts → st.issued <+: st'.issued →
      ∀ a ∈ st'.attempts, Genuine svc calls st' a := by
    intro st' hattempts hissued a ha
    exact (hi.genuine a (hattempts ▸ ha)).mono hissued
  have hattempt : ∀ (st' : EnrollState ι) (a : Attempt ι), st'.attempts = st.attempts →
      st'.issued = st.issued → Genuine svc calls st a →
      ∀ a' ∈ (st'.attempt a).attempts, Genuine svc calls (st'.attempt a) a' := by
    intro st' a hattempts hissued hgen a' ha'
    have hpre : st.issued <+: (st'.attempt a).issued := hissued ▸ List.prefix_refl _
    rcases List.mem_append.mp ha' with hold | hnew
    · exact (hi.genuine a' (hattempts ▸ hold)).mono hpre
    · rw [List.mem_singleton.mp hnew]
      exact hgen.mono hpre
  cases h with
  | swept | told | confirmed => exact hkept _ rfl (List.prefix_refl _)
  | created => exact hkept _ rfl (List.prefix_append _ _)
  | wrote outcome | removed outcome =>
    unfold QueryOutcome.apply
    split_ifs
    · exact hi.genuine
    · exact hkept _ rfl (List.prefix_refl _)
  | missed t iv _ id pending hcall hev =>
    exact hattempt _ _ rfl rfl ⟨rfl, fun c hc => by simp at hc⟩
  | spared t iv _ dt a r hr ha hheld hcompared hquiet =>
    have hright : a.isWrong = false := Attempt.isWrong_of_ok fun c hc => (hcompared c hc).1
    refine hattempt _ _ rfl rfl (hi.genuine_of_compares t ha ?_ fun c hc => (hcompared c hc).2)
    rw [hright, Attempt.count_of_quiet hquiet fun _ => rfl]
    rfl
  | struck t iv _ dt a c ha hc hwrong hcompares hfailed hlimited =>
    refine hattempt _ _ rfl rfl (hi.genuine_of_compares t ha ?_ fun c' hc' => ?_)
    · rw [hfailed, if_pos (by simp [Attempt.isWrong, hc, hwrong])]
    · obtain rfl : c = c' := Option.some.inj (hc.symm.trans hc')
      exact hcompares
  | verified t iv _ dt id encrypted c hok hcompares henc =>
    refine hattempt _ _ rfl rfl (hi.genuine_of_compares t rfl ?_ fun c' hc' => ?_)
    · simp [Attempt.isWrong, Attempt.count, hok]
    · obtain rfl : c = c' := Option.some.inj hc'
      exact hcompares

theorem Does.inv (h : Does svc calls i k l st l' st') (hfresh : FreshEnrollment st k l)
    (hi : EnrollInv svc calls st) : EnrollInv svc calls st' where
  tally id := h.tally hfresh (hi.tally id)
  ids := h.ids hfresh hi.ids
  genuine := h.genuine hi
  heard := h.heard hi.heard

/-- A call that saves, or has saved, was recorded with a code that verified. -/
def Knows (svc : EnrollDeps) (i : ι) : EnrollPhase → EnrollState ι → Prop
  | .saving e encrypted, st => ∃ a ∈ st.attempts, a.call = i ∧
      (∃ now, a.compared = some ⟨e, now, true⟩) ∧
      ∃ iv, aesGcmEncrypt svc.crypto e.secret svc.cfg.encryptionKey iv = some encrypted
  | .saved, st => ∃ a ∈ st.attempts, a.call = i ∧ ∃ e now, a.compared = some ⟨e, now, true⟩
  | _, _ => True

theorem Knows.mono (h : Knows svc i l st) (hg : Grows st st') : Knows svc i l st' := by
  cases l with
  | saving e encrypted =>
    obtain ⟨a, ha, h⟩ := h
    exact ⟨a, hg.attempts.subset ha, h⟩
  | saved =>
    obtain ⟨a, ha, h⟩ := h
    exact ⟨a, hg.attempts.subset ha, h⟩
  | idle | reading | read | readFailed | saveFailed | deleting | deleted | deleteFailed
  | returned => trivial

theorem knows_of_plain (h : l.Plain) : Knows svc i l st := by
  cases l with
  | saving | saved => exact h.elim
  | idle | reading | read | readFailed | saveFailed | deleting | deleted | deleteFailed
  | returned => trivial

theorem Does.knows (h : Does svc calls i k l st l' st') (hl : Knows svc i l st) :
    Knows svc i l' st' := by
  have hg := h.grows
  cases h with
  | swept _ _ _ _ dt pending hplain hev =>
    rcases hplain with rfl | hplain
    · exact hl.mono hg
    · exact knows_of_plain hplain
  | told _ _ _ _ dt event payload hplain => exact knows_of_plain hplain
  | removed outcome _ _ hplain => exact knows_of_plain hplain
  | created | missed | spared | struck | confirmed => trivial
  | verified t iv _ dt id encrypted c hok hcompares henc =>
    refine ⟨_, List.mem_append_right _ (List.mem_singleton_self _), rfl, ⟨c.now, ?_⟩, iv, henc⟩
    rw [← hok]
  | wrote outcome _ e encrypted =>
    obtain ⟨a, ha, hcall, ⟨now, hc⟩, -⟩ := hl
    split_ifs
    · exact ⟨a, hg.attempts.subset ha, hcall, e, now, hc⟩
    · trivial

/-- Two entries under one id have one owner. -/
theorem EnrollInv.owner_unique (hi : EnrollInv svc calls st) {e e' : PendingEnrollment}
    (he : st.Issued id e) (he' : st.Issued id e') : e.userId = e'.userId := by
  obtain ⟨e₀, hmem, he⟩ := he
  obtain ⟨e₀', hmem', he'⟩ := he'
  obtain rfl : e₀ = e₀' := by
    have := List.inj_on_of_nodup_map hi.ids hmem hmem' rfl
    exact (Prod.ext_iff.mp this).2
  rw [he, he']

/-- The call that comes back from the table deletes an entry of its own user. -/
theorem EnrollInv.owner_of_saved (hi : EnrollInv svc calls st) (hl : Knows svc i .saved st)
    {code userId : String} {ip ja4h : Option String}
    (hcall : calls i = .confirm id code userId ip ja4h) {e : PendingEnrollment}
    (he : st.pending.get id = some e) : e.userId = (calls i).userId := by
  obtain ⟨a, ha, rfl, e', now, hc⟩ := hl
  obtain ⟨howner, hissued, code', userId', ip', ja4h', hcall', -⟩ := (hi.genuine a ha).compared _ hc
  obtain rfl : id = a.enrollmentId := by
    rw [hcall] at hcall'
    exact (EnrollCall.confirm.inj hcall').1
  rw [← howner]
  exact hi.owner_unique ((hi.tally _).held e he).2.2 hissued

theorem Does.foreign (h : Does svc calls i k l st l' st') (hfresh : FreshEnrollment st k l)
    (hi : EnrollInv svc calls st) (hl : Knows svc i l st) {e : PendingEnrollment}
    (he : st.pending.get id = some e) (hother : (calls i).userId ≠ e.userId)
    (hlive : st'.now < e.expiresAt) : st'.pending.get id = some e := by
  cases h with
  | swept _ _ _ _ dt pending hplain hev => exact hev.get_of_live he hlive
  | told | spared | verified => exact he
  | created dt id' bytes existing _ r hr hcall hex =>
    obtain ⟨e₀, hmem, -⟩ := ((hi.tally id).held e he).2.2
    have hid : id ≠ id' := by
      rintro rfl
      exact hfresh hex (List.mem_map_of_mem hmem)
    exact (JsMap.get_set_ne hid).trans he
  | missed t iv _ id' pending hcall hev => exact hev.get_of_live he hlive
  | struck t iv _ dt a c ha hc hwrong hcompares =>
    have hid : id ≠ a.enrollmentId := by
      rintro rfl
      obtain rfl : c.entry = e := Option.some.inj (hcompares.held.symm.trans he)
      exact hother hcompares.owner.symm
    exact (get_strike_ne hid).trans he
  | wrote outcome | removed outcome =>
    unfold QueryOutcome.apply
    split_ifs
    · exact he
    · exact he
  | confirmed dt id' bytes _ id'' payload hcall =>
    obtain ⟨code, userId, ip, ja4h, hcall⟩ := hcall
    have hid : id ≠ id'' := by
      rintro rfl
      exact hother (hi.owner_of_saved hl hcall he).symm
    exact (JsMap.get_delete_ne hid).trans he

/-- The write of call `i`: its own attempt verified, and it saves that secret for its user. -/
def SavesVerified (svc : EnrollDeps) (calls : ι → EnrollCall) (i : ι) (st st' : EnrollState ι) :
    Prop :=
  ∃ a ∈ st.attempts, a.call = i ∧ ∃ c, a.compared = some c ∧ c.ok = true ∧
    c.entry.userId = (calls i).userId ∧ st.Issued a.enrollmentId c.entry ∧
    (∃ code userId ip ja4h, calls i = .confirm a.enrollmentId code userId ip ja4h ∧
      totpVerify svc.crypto.toCrypto c.now code c.entry.secret = .ok true) ∧
    ∃ iv encrypted,
      aesGcmEncrypt svc.crypto c.entry.secret svc.cfg.encryptionKey iv = some encrypted ∧
      st'.mfa = st.mfa.saveSecret (calls i).userId encrypted

theorem Does.written (h : Does svc calls i k l st l' st') (hi : EnrollInv svc calls st)
    (hl : Knows svc i l st) (hne : st'.mfa.secrets ≠ st.mfa.secrets) :
    calls i = .delete (calls i).userId ∨ SavesVerified svc calls i st st' := by
  cases h with
  | swept | told | created | missed | spared | struck | verified | confirmed =>
    exact absurd rfl hne
  | removed outcome _ _ hplain hcall => exact .inl hcall
  | wrote outcome _ e encrypted hcall =>
    right
    obtain ⟨a, ha, rfl, ⟨now, hc⟩, iv, henc⟩ := hl
    obtain ⟨howner, hissued, hverdict⟩ := (hi.genuine a ha).compared _ hc
    unfold QueryOutcome.apply at hne ⊢
    split_ifs at hne ⊢ with hfailed
    · exact absurd rfl hne
    · exact ⟨a, ha, rfl, _, hc, rfl, howner, hissued, hverdict, iv, encrypted, henc, rfl⟩

section Pool

variable [DecidableEq ι] {p : EnrollPool ι} {m : ι × EnrollStep}

/-- The ids `randomUUID` draws are distinct. -/
def DistinctIds (p : EnrollPool ι) (m : ι × EnrollStep) : Prop :=
  FreshEnrollment p.shared m.2 (p.locals m.1)

instance (p : EnrollPool ι) (m : ι × EnrollStep) : Decidable (DistinctIds p m) :=
  FreshEnrollment.decidable _ _ _

theorem enroll_holds_step (p : EnrollPool ι) (m : ι × EnrollStep)
    (hp : p.Holds (EnrollInv svc calls) (Knows svc)) (hm : DistinctIds p m) :
    (enrollStep svc calls p m).Holds (EnrollInv svc calls) (Knows svc) := by
  refine hp.step (fun l st hact => ?_) fun l st hact j hj => ?_
  · have hdoes := enrollAct_does hact
    exact ⟨hdoes.inv hm hp.1, hdoes.knows (hp.2 m.1)⟩
  · exact (hp.2 j).mono (enrollAct_does hact).grows

omit [DecidableEq ι] in
theorem enroll_holds_start (now : ℕ) (secrets : List (String × String)) :
    (enrollStart now secrets : EnrollPool ι).Holds (EnrollInv svc calls) (Knows svc) := by
  refine ⟨⟨fun id => ?_, List.nodup_nil, fun a ha => ?_, rfl⟩, fun _ => trivial⟩
  · exact ⟨fun e he => by simp [enrollStart] at he, Nat.zero_le _, fun _ => rfl, rfl⟩
  · simp [enrollStart] at ha

/-- An exhausted id has no entry, so a call that begins with it finds none. -/
theorem expired_of_exhausted (hi : EnrollInv svc calls p.shared)
    (hmax : p.shared.wrong id = ENROLL_MAX_ATTEMPTS) {code userId : String}
    {ip ja4h : Option String} (hcall : calls i = .confirm id code userId ip ja4h)
    (hidle : p.locals i = .idle) (t : Ticks) (iv : Iv) :
    (enrollStep svc calls p (i, .begin_ t iv)).locals i = .returned .expiredEnrollment := by
  have hnone : p.shared.pending.get id = none := by
    cases hget : p.shared.pending.get id with
    | none => rfl
    | some e =>
      have := ((hi.tally id).held e hget).2.1
      omega
  have hbegin : confirmBegin svc i id code userId ip ja4h t iv p.shared =
      (.returned .expiredEnrollment,
        (p.shared.advance t.get).attempt { call := i, enrollmentId := id }) := by
    have : (p.shared.advance t.get).pending.get id = none := hnone
    simp only [confirmBegin, PendingStore.get, this]
  have hact : enrollAct svc calls i (.begin_ t iv) (p.locals i) p.shared =
      some (.returned .expiredEnrollment,
        (p.shared.advance t.get).attempt { call := i, enrollmentId := id }) := by
    simp only [enrollAct, hidle, hcall, hbegin]
  have hstep := @Pool.step_of_some _ _ _ _ _ (enrollAct svc calls) p (i, .begin_ t iv) _ _ hact
  rw [enrollStep, hstep]
  exact Function.update_self _ _ _

/-- What is claimed of a reachable state, and of the step after it. -/
structure BruteForceBound (svc : EnrollDeps) (calls : ι → EnrollCall) (p : EnrollPool ι) :
    Prop where
  compared : ∀ id, p.shared.wrong id ≤ ENROLL_MAX_ATTEMPTS
  held : ∀ id e, p.shared.pending.get id = some e → e.attempts < ENROLL_MAX_ATTEMPTS
  limited : ∀ id, p.shared.limited id = if p.shared.wrong id = ENROLL_MAX_ATTEMPTS then 1 else 0
  expired : ∀ id, p.shared.wrong id = ENROLL_MAX_ATTEMPTS →
    ∀ i code userId ip ja4h t iv, calls i = .confirm id code userId ip ja4h →
      p.locals i = .idle →
      (enrollStep svc calls p (i, .begin_ t iv)).locals i = .returned .expiredEnrollment
  failed : ∀ a ∈ p.shared.attempts, a.count .mfaFailed = if a.isWrong then 1 else 0
  heard : p.shared.mfa.emitted.filter isSignal =
    (p.shared.attempts.flatMap (·.emitted)).filter isSignal
  foreign : ∀ m id e, DistinctIds p m → p.shared.pending.get id = some e →
    (calls m.1).userId ≠ e.userId → (enrollStep svc calls p m).shared.now < e.expiresAt →
    (enrollStep svc calls p m).shared.pending.get id = some e
  written : ∀ m, (enrollStep svc calls p m).shared.mfa.secrets ≠ p.shared.mfa.secrets →
    calls m.1 = .delete (calls m.1).userId ∨
      SavesVerified svc calls m.1 p.shared (enrollStep svc calls p m).shared

theorem bound_of_holds (hp : p.Holds (EnrollInv svc calls) (Knows svc)) :
    BruteForceBound svc calls p where
  compared id := (hp.1.tally id).bound
  held id e he := by
    obtain ⟨heq, hlt, -⟩ := (hp.1.tally id).held e he
    omega
  limited id := (hp.1.tally id).limited
  expired id hmax i code userId ip ja4h t iv hcall hidle :=
    expired_of_exhausted hp.1 hmax hcall hidle t iv
  failed a ha := (hp.1.genuine a ha).failed
  heard := hp.1.heard
  foreign m id e hfresh he hother hlive := by
    rcases enrollStep_cases svc calls p m with heq | ⟨l, st, hdoes, heq⟩
    · rw [heq]
      exact he
    · rw [heq] at hlive ⊢
      exact hdoes.foreign hfresh hp.1 (hp.2 m.1) he hother hlive
  written m hne := by
    rcases enrollStep_cases svc calls p m with heq | ⟨l, st, hdoes, heq⟩
    · rw [heq] at hne
      exact absurd rfl hne
    · rw [heq] at hne ⊢
      exact hdoes.written hp.1 (hp.2 m.1) hne

/-- In every interleaving the bound holds in every state reached, and an id that is exhausted
stays so. -/
theorem enrollment_bound_of_run (svc : EnrollDeps) (calls : ι → EnrollCall) (now : ℕ)
    (secrets : List (String × String)) (ops : List (ι × EnrollStep))
    (hids : Along (enrollStep svc calls) DistinctIds (enrollStart now secrets) ops) :
    BruteForceBound svc calls (runSteps (enrollStep svc calls) (enrollStart now secrets) ops) ∧
      ∀ ops₁ ops₂, ops = ops₁ ++ ops₂ → ∀ id,
        (runSteps (enrollStep svc calls) (enrollStart now secrets) ops₁).shared.wrong id =
          ENROLL_MAX_ATTEMPTS →
        (runSteps (enrollStep svc calls) (enrollStart now secrets) ops).shared.wrong id =
          ENROLL_MAX_ATTEMPTS := by
  have hp := runSteps_invariant enroll_holds_step
    (@enroll_holds_start ι svc calls now secrets) hids
  refine ⟨bound_of_holds hp, fun ops₁ ops₂ hops id hmax => ?_⟩
  refine le_antisymm (hp.1.tally id).bound ?_
  rw [← hmax, hops, runSteps_append]
  have hstep : ∀ (p' : EnrollPool ι) (m : ι × EnrollStep) (n : ℕ), n ≤ p'.shared.wrong id →
      n ≤ (enrollStep svc calls p' m).shared.wrong id :=
    fun p' m n hn => hn.trans ((enrollStep_grows svc calls p' m).wrong_le id)
  exact runSteps_keeps (fun p' m hn => hstep p' m _ hn) le_rfl ops₂

end Pool

/-- two draws of twenty bytes -/
def sampleBytes (first : ℕ) : Buffer := (List.range 20).map fun n => BitVec.ofNat 8 (first + n)

/-- HMAC-SHA1 of the first three counters under each -/
def sampleHmacs : List ((ℕ × ℕ) × Buffer) :=
  [((0, 0), [76, 185, 254, 83, 223, 144, 70, 102, 137, 23, 155, 179, 186, 120, 143, 185, 252, 29,
      133, 59]),
    ((0, 1), [63, 241, 10, 170, 159, 176, 159, 2, 87, 52, 205, 22, 6, 3, 3, 144, 30, 29, 132, 97]),
    ((0, 2), [207, 131, 167, 196, 145, 98, 49, 44, 229, 249, 218, 78, 140, 106, 28, 22, 201, 200,
      73, 138]),
    ((100, 0), [10, 177, 102, 23, 59, 18, 238, 243, 244, 215, 107, 162, 26, 107, 247, 183, 238,
      140, 31, 131]),
    ((100, 1), [7, 120, 234, 213, 14, 164, 64, 129, 67, 106, 19, 255, 203, 97, 115, 137, 248, 119,
      61, 111]),
    ((100, 2), [170, 21, 155, 157, 59, 177, 214, 218, 109, 198, 60, 53, 139, 69, 32, 48, 228, 157,
      129, 233])]

def sampleHmac (key msg : Buffer) : Buffer :=
  match sampleHmacs.find? fun x => key = sampleBytes x.1.1 ∧
      msg = List.replicate 7 0 ++ [BitVec.ofNat 8 x.1.2] with
  | some x => x.2
  | none => List.replicate 20 0

theorem sampleHmac_length (key msg : Buffer) : (sampleHmac key msg).length = 20 := by
  unfold sampleHmac
  split
  · have hall : ∀ x ∈ sampleHmacs, x.2.length = 20 := by decide
    exact hall _ (List.mem_of_find?_eq_some ‹_›)
  · rfl

/-- a key, an IV, and the two secrets sealed under them -/
def sampleGcmKey : Buffer := (List.range 32).map (BitVec.ofNat 8)

def sampleIv : Iv := ⟨(List.range 12).map (BitVec.ofNat 8), rfl⟩

def sampleSealed : List (Buffer × Buffer × Buffer) :=
  [(Utf8.encode "AAAQEAYEAUDAOCAJBIFQYDIOB4IBCEQT".toList,
      [6, 67, 151, 74, 128, 164, 155, 94, 204, 20, 211, 202, 254, 170, 57, 39, 193, 159, 193, 101,
        169, 63, 22, 51, 122, 83, 172, 199, 94, 44, 81, 230],
      [147, 59, 198, 236, 80, 218, 82, 78, 32, 201, 117, 111, 120, 24, 96, 173]),
    (Utf8.encode "MRSWMZ3INFVGW3DNNZXXA4LSON2HK5TX".toList,
      [10, 80, 133, 76, 136, 191, 241, 82, 195, 7, 193, 204, 230, 218, 60, 35, 205, 140, 223, 108,
        177, 79, 19, 47, 119, 41, 215, 205, 86, 92, 84, 234],
      [99, 222, 74, 150, 152, 167, 185, 28, 37, 46, 80, 211, 195, 70, 14, 106])]

/-- the primitives; HMAC and GCM on the inputs of the runs below -/
def sampleCipher : Cipher where
  sha256Hex _ := ""
  hmacSha1 := sampleHmac
  hmacSha1_length := sampleHmac_length
  gcmOpen key iv ciphertext authTag :=
    if key = sampleGcmKey ∧ iv = sampleIv.1 then
      (sampleSealed.find? fun x => x.2 = (ciphertext, authTag)).map Prod.fst
    else none
  gcmSeal key iv plaintext :=
    if key = sampleGcmKey ∧ iv = sampleIv.1 then
      (sampleSealed.find? fun x => x.1 = plaintext).map Prod.snd
    else none
  base64Decode s := Base64.decode (fun c => c = '=') s.toList
  base64Encode b := String.ofList (Base64.encodePadded Base64.standard b)
  utf8Encode s := Utf8.encode s.toList
  utf8Decode b := String.ofList (Utf8.decode b)
  toUpperCase s := String.ofList (s.toList.map Char.toUpper)

def sampleEnroll : EnrollDeps where
  cfg := { encryptionKey := "AAECAwQFBgcICQoLDA0ODxAREhMUFRYXGBkaGxwdHh8=", issuerName := "zt",
           enrollPendingTtlMs := 600000 }
  crypto := sampleCipher
  encodeURIComponent s := s

/-- one enrollment, and guesses at its code -/
def guessCalls : ℕ → EnrollCall
  | 0 => .create "alice" none
  | _ => .confirm "e1" "000000" "alice" none none

def guessRun : List (ℕ × EnrollStep) :=
  [(0, .begin_ {} sampleIv), (0, .query .done), (0, .resume 0 "e1" (sampleBytes 0)),
    (1, .begin_ {} sampleIv), (2, .begin_ {} sampleIv), (3, .begin_ {} sampleIv),
    (4, .begin_ {} sampleIv), (5, .begin_ {} sampleIv), (6, .begin_ {} sampleIv)]

theorem enrollment_bound_of_run_guesses :
    let p := runSteps (enrollStep sampleEnroll guessCalls) (enrollStart 59000 []) guessRun
    p.shared.wrong "e1" = ENROLL_MAX_ATTEMPTS ∧ p.locals 6 = .returned .expiredEnrollment ∧
      BruteForceBound sampleEnroll guessCalls p :=
  ⟨by decide +kernel, by decide +kernel,
    (enrollment_bound_of_run sampleEnroll guessCalls 59000 [] guessRun (by decide +kernel)).1⟩

end ZTG
