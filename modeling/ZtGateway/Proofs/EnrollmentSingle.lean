import ZtGateway.Proofs.EnrollmentBound

/-! One enrollment per user. A user's secret can be in three places: in a pending entry, in
a confirmation on its way to the table, and in the table. They agree as long as no
createEnrollment adds an entry for a user who already has a secret in one of them: the
check it made before its await may no longer hold. -/

namespace ZTG

open PendingStore (Evicts strike get_strike_self get_strike_ne)

variable {ι : Type} {svc : EnrollDeps} {calls : ι → EnrollCall} {i j : ι} {k : EnrollStep}
  {l l' : EnrollPhase} {st st' : EnrollState ι} {id userId s : String}

/-- what `node:crypto` and `Buffer` promise -/
structure CipherLaws (c : Cipher) : Prop where
  base64 : ∀ b, c.base64Decode (c.base64Encode b) = b
  utf8 : ∀ s, c.utf8Decode (c.utf8Encode s) = s
  tag_length : ∀ key iv plaintext ciphertext authTag,
    c.gcmSeal key iv plaintext = some (ciphertext, authTag) → authTag.length = AUTH_TAG_BYTES
  opens : ∀ key iv plaintext ciphertext authTag,
    c.gcmSeal key iv plaintext = some (ciphertext, authTag) →
      c.gcmOpen key iv ciphertext authTag = some plaintext

/-- The stored text is cut back into the IV, the ciphertext and the tag it was put together from. -/
theorem aesGcmDecrypt_frame {c : Cipher} (hbase64 : ∀ b, c.base64Decode (c.base64Encode b) = b)
    (key : String) {iv ciphertext authTag : Buffer} (hiv : iv.length = IV_BYTES)
    (htag : authTag.length = AUTH_TAG_BYTES) :
    aesGcmDecrypt c.toCrypto (c.base64Encode (iv ++ ciphertext ++ authTag)) key =
      (c.gcmOpen (c.base64Decode key) iv ciphertext authTag).map c.utf8Decode := by
  have htotal : (iv ++ ciphertext ++ authTag).length =
      IV_BYTES + ciphertext.length + AUTH_TAG_BYTES := by
    simp [htag, hiv, Nat.add_assoc]
  unfold aesGcmDecrypt
  simp only [hbase64, htotal]
  rw [if_neg (by omega)]
  have htake : (iv ++ ciphertext ++ authTag).take IV_BYTES = iv := by
    rw [List.append_assoc, List.take_left' hiv]
  have hdrop : (iv ++ ciphertext ++ authTag).drop
      (IV_BYTES + ciphertext.length + AUTH_TAG_BYTES - AUTH_TAG_BYTES) = authTag := by
    rw [List.drop_left']
    simp [hiv]
  have hmid : ((iv ++ ciphertext ++ authTag).drop IV_BYTES).take
      (IV_BYTES + ciphertext.length + AUTH_TAG_BYTES - AUTH_TAG_BYTES - IV_BYTES) = ciphertext := by
    rw [List.append_assoc, List.drop_left' hiv, List.take_left']
    omega
  rw [htake, hdrop, hmid]

theorem aesGcmDecrypt_encrypt {c : Cipher} (hc : CipherLaws c) {plaintext key encrypted : String}
    {iv : Iv} (h : aesGcmEncrypt c plaintext key iv = some encrypted) :
    aesGcmDecrypt c.toCrypto encrypted key = some plaintext := by
  obtain ⟨⟨ciphertext, authTag⟩, hseal, rfl⟩ := Option.map_eq_some_iff.mp h
  have hlen : authTag.length = AUTH_TAG_BYTES := hc.tag_length _ _ _ _ _ hseal
  rw [aesGcmDecrypt_frame hc.base64 key iv.2 hlen, hc.opens _ _ _ _ _ hseal, Option.map_some,
    hc.utf8]

theorem getEncryptedSecret_saveSecret (st : MfaState) (userId userId' encrypted : String) :
    (st.saveSecret userId encrypted).getEncryptedSecret userId' =
      if userId' = userId then some encrypted else st.getEncryptedSecret userId' := by
  unfold MfaState.getEncryptedSecret MfaState.saveSecret
  split_ifs with h
  · subst h
    simp
  · have hne : (userId' == userId) = false := by simpa using h
    rw [List.lookup_cons, hne]
    induction st.secrets with
    | nil => rfl
    | cons x rest ih =>
      obtain ⟨u, enc⟩ := x
      by_cases hu : u = userId
      · subst hu
        simp [List.lookup_cons, hne, ih]
      · by_cases hu' : userId' = u
        · subst hu'
          simp [hu]
        · have : (userId' == u) = false := by simpa using hu'
          simp [hu, List.lookup_cons, this, ih]

/-- the plaintext of the user's row in `user_secrets` -/
def EnrollState.stored (svc : EnrollDeps) (st : EnrollState ι) (userId : String) : Option String :=
  (st.mfa.getEncryptedSecret userId).bind fun encrypted =>
    aesGcmDecrypt svc.crypto.toCrypto encrypted svc.cfg.encryptionKey

/-- a pending entry of the user that is unexpired at `now` -/
def EnrollState.Lives (st : EnrollState ι) (now : ℕ) (userId id s : String) : Prop :=
  ∃ e, st.pending.get id = some e ∧ e.userId = userId ∧ now < e.expiresAt ∧ e.secret = s

open EnrollState (stored Lives)

/-- where a secret of the user can be -/
inductive Source (svc : EnrollDeps) (userId : String) (p : EnrollPool ι) : String → Prop
  | pending (id s : String) (h : p.shared.Lives p.shared.now userId id s) :
      Source svc userId p s
  | saving (j : ι) (e : PendingEnrollment) (encrypted : String)
      (h : p.locals j = .saving e encrypted) (howner : e.userId = userId) :
      Source svc userId p e.secret
  | stored (s : String) (h : p.shared.stored svc userId = some s) : Source svc userId p s

/-- the row of the call is in the table -/
def EnrollPhase.Done (l : EnrollPhase) : Prop := l = .saved ∨ l = .returned .confirmed

structure Agreed (svc : EnrollDeps) (calls : ι → EnrollCall) (userId : String)
    (p : EnrollPool ι) : Prop where
  one : ∀ id id' s s', p.shared.Lives p.shared.now userId id s →
    p.shared.Lives p.shared.now userId id' s' → id = id'
  agree : ∀ s s', Source svc userId p s → Source svc userId p s' → s = s'
  sealed_ : ∀ j e encrypted, p.locals j = .saving e encrypted → e.userId = (calls j).userId ∧
    ∃ iv, aesGcmEncrypt svc.crypto e.secret svc.cfg.encryptionKey iv = some encrypted
  done : ∀ j, (calls j).userId = userId → (p.locals j).Done →
    ∃ s, p.shared.stored svc userId = some s

/-- whose secret is on its way to the table -/
def EnrollPhase.savingFor : EnrollPhase → Option String
  | .saving e _ => some e.userId
  | _ => none

/-- A createEnrollment that adds an entry for the user finds no secret of the user anywhere: no
entry that is still live, no row, and no confirmation about to write one. -/
def Unclaimed (userId : String) (st : EnrollState ι) (locals : ι → EnrollPhase) :
    EnrollStep → EnrollPhase → EnrollCall → Prop
  | .resume dt _ _, .read existing, .create userId' _ =>
    userId' = userId → existing.getD "" = "" →
      (∀ x ∈ st.pending.entries, x.2.userId = userId → x.2.expiresAt ≤ st.now + dt) ∧
      st.mfa.getEncryptedSecret userId = none ∧
      ∀ j, (locals j).savingFor ≠ some userId
  | _, _, _ => True

instance Unclaimed.decidable [Fintype ι] (userId : String) (st : EnrollState ι)
    (locals : ι → EnrollPhase) : ∀ k l c, Decidable (Unclaimed userId st locals k l c)
  | .resume _ _ _, .read _, .create _ _ => inferInstanceAs (Decidable (_ → _ → _ ∧ _ ∧ ∀ _, _))
  | .resume _ _ _, .read _, .confirm _ _ _ _ _ | .resume _ _ _, .read _, .delete _
  | .begin_ _ _, _, _ | .query _, _, _ | .tick _, _, _ => .isTrue trivial
  | .resume _ _ _, .idle, _ | .resume _ _ _, .reading, _ | .resume _ _ _, .readFailed, _
  | .resume _ _ _, .saving _ _, _ | .resume _ _ _, .saved, _ | .resume _ _ _, .saveFailed, _
  | .resume _ _ _, .deleting, _ | .resume _ _ _, .deleted _, _ | .resume _ _ _, .deleteFailed, _
  | .resume _ _ _, .returned _, _ => .isTrue trivial

/-- The step makes the entry `id` for the user, with the secret `s`. -/
def Makes (calls : ι → EnrollCall) (i : ι) (k : EnrollStep) (l : EnrollPhase)
    (st st' : EnrollState ι) (userId id s : String) : Prop :=
  ∃ dt bytes existing, k = .resume dt id bytes ∧ l = .read existing ∧ existing.getD "" = "" ∧
    (∃ userEmail, calls i = .create userId userEmail) ∧ s = base32Encode bytes ∧
    st'.now = st.now + dt

/-- What a step leaves of the live entries was there before, unless it made it. -/
theorem Does.lives (h : Does svc calls i k l st l' st') (hs : st'.Lives st'.now userId id s) :
    st.Lives st'.now userId id s ∨ Makes calls i k l st st' userId id s := by
  obtain ⟨e, he, howner, hlive, hsecret⟩ := hs
  have hold : st.pending.get id = some e →
      st.Lives st'.now userId id s ∨ Makes calls i k l st st' userId id s :=
    fun he => .inl ⟨e, he, howner, hlive, hsecret⟩
  cases h with
  | swept _ _ _ _ dt pending hl hev => exact hold (hev.get_of_get he)
  | told | spared | verified => exact hold he
  | created dt id' bytes existing _ r hr hcall hex =>
    change (st.pending.set id' _).get id = some e at he
    rw [JsMap.get_set] at he
    split_ifs at he with hid
    · cases he
      subst hid
      obtain rfl : (calls i).userId = userId := howner
      exact .inr ⟨dt, bytes, existing, rfl, rfl, hex, hcall, hsecret.symm, rfl⟩
    · exact hold he
  | missed t iv _ id' pending hcall hev => exact hold (hev.get_of_get he)
  | struck t iv _ dt a c ha hc hwrong hcompares =>
    change (strike st.pending a.enrollmentId c.entry).get id = some e at he
    by_cases hid : id = a.enrollmentId
    · subst hid
      rw [get_strike_self] at he
      split_ifs at he
      cases he
      exact .inl ⟨c.entry, hcompares.held, howner, hlive, hsecret⟩
    · exact hold ((get_strike_ne hid).symm.trans he)
  | wrote outcome | removed outcome =>
    unfold QueryOutcome.apply at he
    split_ifs at he
    · exact hold he
    · exact hold he
  | confirmed dt id' bytes _ id'' payload hcall =>
    change (st.pending.delete id'').get id = some e at he
    rw [JsMap.get_delete] at he
    split_ifs at he
    exact hold he

/-- A call comes to save the secret of a live entry of its own user. -/
theorem Does.saving {e : PendingEnrollment} {encrypted : String}
    (h : Does svc calls i k l st (.saving e encrypted) st') :
    l = .saving e encrypted ∨ l = .idle ∧ e.userId = (calls i).userId ∧
      (∃ t iv, k = .begin_ t iv ∧
        aesGcmEncrypt svc.crypto e.secret svc.cfg.encryptionKey iv = some encrypted) ∧
      ∃ id, st.Lives st.now (calls i).userId id e.secret := by
  generalize hl' : EnrollPhase.saving e encrypted = l' at h
  cases h with
  | swept _ _ _ _ dt pending hl hev =>
    rcases hl with rfl | hl
    · exact .inl rfl
    · rw [← hl'] at hl
      exact hl.elim
  | told _ _ _ _ dt event payload hl | removed outcome _ _ hl =>
    rw [← hl'] at hl
    exact hl.elim
  | verified t iv _ dt id encrypted' c hok hcompares henc =>
    cases hl'
    refine .inr ⟨rfl, hcompares.owner, ⟨t, iv, rfl, henc⟩, id, c.entry, hcompares.held, hcompares.owner,
      ?_, rfl⟩
    have := hcompares.live
    omega
  | wrote outcome =>
    split_ifs at hl'
  | created | missed | spared | struck | confirmed => cases hl'

/-- Only a save or a delete touches the table. -/
theorem Does.table (h : Does svc calls i k l st l' st') : st'.mfa.secrets = st.mfa.secrets ∨
    (∃ e encrypted, l = .saving e encrypted ∧
      st'.mfa = st.mfa.saveSecret (calls i).userId encrypted) ∨
    calls i = .delete (calls i).userId := by
  cases h with
  | swept | told | created | missed | spared | struck | verified | confirmed => exact .inl rfl
  | removed outcome _ _ hl hcall => exact .inr (.inr hcall)
  | wrote outcome _ e encrypted =>
    unfold QueryOutcome.apply
    split_ifs
    · exact .inl rfl
    · exact .inr (.inl ⟨e, encrypted, rfl, rfl⟩)

/-- A call is done only if it was before, or its save has just answered, or it comes back. -/
theorem Does.done (h : Does svc calls i k l st l' st') (hl' : l'.Done) :
    l.Done ∨ ∃ e encrypted, l = .saving e encrypted ∧
      st'.mfa = st.mfa.saveSecret (calls i).userId encrypted := by
  have hplain : ∀ l : EnrollPhase, l.Plain → ¬ l.Done := by
    rintro l hl (rfl | rfl)
    · exact hl
    · exact hl
  cases h with
  | swept _ _ _ _ dt pending hl hev =>
    rcases hl with rfl | hl
    · exact .inl hl'
    · exact absurd hl' (hplain _ hl)
  | told _ _ _ _ dt event payload hl | removed outcome _ _ hl => exact absurd hl' (hplain _ hl)
  | created dt id bytes existing _ r hr | spared t iv _ dt a r hr => exact absurd hl' (hplain _ hr)
  | missed | struck | verified => rcases hl' with h | h <;> cases h
  | wrote outcome _ e encrypted =>
    right
    have hdone : outcome = .done := by
      by_contra hne
      rw [if_neg hne] at hl'
      rcases hl' with h | h <;> cases h
    subst hdone
    exact ⟨e, encrypted, rfl, rfl⟩
  | confirmed => exact .inl (.inl rfl)

section Pool

variable [DecidableEq ι] {p : EnrollPool ι} {m : ι × EnrollStep}

/-- The step adds no second secret of the user. -/
def Exclusive (calls : ι → EnrollCall) (userId : String) (p : EnrollPool ι) (m : ι × EnrollStep) :
    Prop := Unclaimed userId p.shared p.locals m.2 (p.locals m.1) (calls m.1)

instance [Fintype ι] (calls : ι → EnrollCall) (userId : String) (p : EnrollPool ι)
    (m : ι × EnrollStep) : Decidable (Exclusive calls userId p m) :=
  Unclaimed.decidable _ _ _ _ _ _

/-- Once a secret is in the table the save of a confirmation writes it again. -/
theorem stored_step (hc : CipherLaws svc.crypto) (hp : Agreed svc calls userId p)
    (hnodelete : ∀ i, calls i ≠ .delete (calls i).userId)
    (hs : p.shared.stored svc userId = some s) :
    (enrollStep svc calls p m).shared.stored svc userId = some s := by
  rcases enrollStep_cases svc calls p m with heq | ⟨l, st, hdoes, heq⟩
  · rw [heq]
    exact hs
  rw [heq]
  rcases hdoes.table with htable | ⟨e, encrypted, hl, hmfa⟩ | hdelete
  · simpa only [stored, MfaState.getEncryptedSecret, htable] using hs
  · obtain ⟨howner, iv, henc⟩ := hp.sealed_ _ _ _ hl
    simp only [stored, hmfa, getEncryptedSecret_saveSecret]
    split_ifs with hu
    · rw [Option.bind_some, aesGcmDecrypt_encrypt hc henc]
      exact congrArg some (hp.agree _ _ (.saving _ e encrypted hl (howner.trans hu.symm))
        (.stored s hs))
    · exact hs
  · exact absurd hdelete (hnodelete _)

/-- A step that makes no entry for the user makes no new source of a secret. -/
theorem source_step (hc : CipherLaws svc.crypto) (hp : Agreed svc calls userId p)
    (hnodelete : ∀ i, calls i ≠ .delete (calls i).userId)
    (hdoes : Does svc calls m.1 m.2 (p.locals m.1) p.shared l st)
    (hmakes : ∀ id s, ¬ Makes calls m.1 m.2 (p.locals m.1) p.shared st userId id s)
    (hs : Source svc userId ⟨st, Function.update p.locals m.1 l⟩ s) : Source svc userId p s := by
  have hnow := hdoes.grows.now
  cases hs with
  | pending id _ h =>
    rcases hdoes.lives h with ⟨e, he, howner, hlive, hsecret⟩ | hmade
    · exact .pending id s ⟨e, he, howner, by omega, hsecret⟩
    · exact absurd hmade (hmakes id s)
  | saving j e encrypted h howner =>
    by_cases hj : j = m.1
    · subst hj
      obtain rfl : l = .saving e encrypted := by simpa using h
      rcases hdoes.saving with hl | ⟨-, huser, -, id, hlives⟩
      · exact .saving m.1 e encrypted hl howner
      · exact .pending id _ (howner ▸ huser ▸ hlives)
    · exact .saving j e encrypted (by simpa [Function.update_of_ne hj] using h) howner
  | stored _ h =>
    rcases hdoes.table with htable | ⟨e, encrypted, hl, hmfa⟩ | hdelete
    · refine .stored s ?_
      simpa only [stored, MfaState.getEncryptedSecret, htable] using h
    · obtain ⟨howner, iv, henc⟩ := hp.sealed_ _ _ _ hl
      simp only [stored, hmfa, getEncryptedSecret_saveSecret] at h
      split_ifs at h with hu
      · rw [Option.bind_some, aesGcmDecrypt_encrypt hc henc] at h
        cases h
        exact .saving m.1 e encrypted hl (howner.trans hu.symm)
      · exact .stored s h
    · exact absurd hdelete (hnodelete _)

omit [DecidableEq ι] in
/-- The entry that an exclusive step makes is the only live one of its user. -/
theorem lives_of_makes (hm : Exclusive calls userId p m)
    (hdoes : Does svc calls m.1 m.2 (p.locals m.1) p.shared l st) {id₁ s₁ : String}
    (hmade : Makes calls m.1 m.2 (p.locals m.1) p.shared st userId id₁ s₁)
    (hs : st.Lives st.now userId id s) : id = id₁ ∧ s = s₁ := by
  obtain ⟨dt, bytes, existing, hk, hl, hex, ⟨userEmail, hcall⟩, rfl, hnow⟩ := hmade
  unfold Exclusive at hm
  rw [hk, hl, hcall] at hm
  obtain ⟨hnone, -, -⟩ := hm rfl hex
  rcases hdoes.lives hs with ⟨e, he, howner, hlive, -⟩ | ⟨_, _, _, hk', -, -, -, rfl, -⟩
  · have := hnone (id, e) (JsMap.get_eq_some.mp he) howner
    dsimp only at this
    omega
  · rw [hk] at hk'
    cases hk'
    exact ⟨rfl, rfl⟩

theorem source_of_makes (hm : Exclusive calls userId p m)
    (hnodelete : ∀ i, calls i ≠ .delete (calls i).userId)
    (hdoes : Does svc calls m.1 m.2 (p.locals m.1) p.shared l st) {id₁ s₁ : String}
    (hmade : Makes calls m.1 m.2 (p.locals m.1) p.shared st userId id₁ s₁)
    (hs : Source svc userId ⟨st, Function.update p.locals m.1 l⟩ s) : s = s₁ := by
  have hlives : ∀ id, st.Lives st.now userId id s → s = s₁ :=
    fun id h => (lives_of_makes hm hdoes hmade h).2
  obtain ⟨dt, bytes, existing, hk, hl, hex, ⟨userEmail, hcall⟩, -, -⟩ := hmade
  unfold Exclusive at hm
  rw [hk, hl, hcall] at hm
  obtain ⟨-, hrow, hsaving⟩ := hm rfl hex
  cases hs with
  | pending id _ h => exact hlives id h
  | saving j e encrypted h howner =>
    by_cases hj : j = m.1
    · subst hj
      obtain rfl : l = .saving e encrypted := by simpa using h
      rcases hdoes.saving with hl' | ⟨hl', -⟩ <;> rw [hl] at hl' <;> cases hl'
    · have h : p.locals j = .saving e encrypted := by simpa [Function.update_of_ne hj] using h
      exact absurd (by rw [h, EnrollPhase.savingFor, howner]) (hsaving j)
  | stored _ h =>
    rcases hdoes.table with htable | ⟨e, encrypted, hl', -⟩ | hdelete
    · simp only [stored, MfaState.getEncryptedSecret, htable] at h hrow
      rw [hrow] at h
      cases h
    · rw [hl] at hl'
      cases hl'
    · exact absurd hdelete (hnodelete _)

theorem agreed_step (hc : CipherLaws svc.crypto)
    (hnodelete : ∀ i, calls i ≠ .delete (calls i).userId) (p : EnrollPool ι) (m : ι × EnrollStep)
    (hp : Agreed svc calls userId p) (hm : Exclusive calls userId p m) :
    Agreed svc calls userId (enrollStep svc calls p m) := by
  have hstored : ∀ s, p.shared.stored svc userId = some s →
      (enrollStep svc calls p m).shared.stored svc userId = some s :=
    fun s hs => stored_step hc hp hnodelete hs
  rcases enrollStep_cases svc calls p m with heq | ⟨l, st, hdoes, heq⟩
  · rwa [heq]
  rw [heq] at hstored ⊢
  have hnow := hdoes.grows.now
  have hsealed : ∀ j e encrypted, Function.update p.locals m.1 l j = .saving e encrypted →
      e.userId = (calls j).userId ∧
        ∃ iv, aesGcmEncrypt svc.crypto e.secret svc.cfg.encryptionKey iv = some encrypted := by
    intro j e encrypted h
    by_cases hj : j = m.1
    · subst hj
      obtain rfl : l = .saving e encrypted := by simpa using h
      rcases hdoes.saving with hl | ⟨-, huser, ⟨t, iv, -, henc⟩, -⟩
      · exact hp.sealed_ _ _ _ hl
      · exact ⟨huser, iv, henc⟩
    · exact hp.sealed_ j e encrypted (by simpa [Function.update_of_ne hj] using h)
  have hdone : ∀ j, (calls j).userId = userId → (Function.update p.locals m.1 l j).Done →
      ∃ s, st.stored svc userId = some s := by
    intro j hj hl
    by_cases hjm : j = m.1
    · subst hjm
      rw [Function.update_self] at hl
      rcases hdoes.done hl with hl | ⟨e, encrypted, hl, hmfa⟩
      · obtain ⟨s, hs⟩ := hp.done m.1 hj hl
        exact ⟨s, hstored s hs⟩
      · obtain ⟨-, iv, henc⟩ := hp.sealed_ _ _ _ hl
        refine ⟨e.secret, ?_⟩
        simp only [stored, hmfa, getEncryptedSecret_saveSecret, hj, if_true, Option.bind_some]
        exact aesGcmDecrypt_encrypt hc henc
    · rw [Function.update_of_ne hjm] at hl
      obtain ⟨s, hs⟩ := hp.done j hj hl
      exact ⟨s, hstored s hs⟩
  by_cases hmakes : ∃ id s, Makes calls m.1 m.2 (p.locals m.1) p.shared st userId id s
  · obtain ⟨id₁, s₁, hmade⟩ := hmakes
    refine ⟨fun id id' s s' h h' => ?_, fun s s' h h' => ?_, hsealed, hdone⟩
    · exact (lives_of_makes hm hdoes hmade h).1.trans (lives_of_makes hm hdoes hmade h').1.symm
    · exact (source_of_makes hm hnodelete hdoes hmade h).trans
        (source_of_makes hm hnodelete hdoes hmade h').symm
  · have hmakes : ∀ id s, ¬ Makes calls m.1 m.2 (p.locals m.1) p.shared st userId id s :=
      fun id s h => hmakes ⟨id, s, h⟩
    refine ⟨fun id id' s s' h h' => ?_, fun s s' h h' => ?_, hsealed, hdone⟩
    · have hlives : ∀ id s, st.Lives st.now userId id s →
          p.shared.Lives p.shared.now userId id s := by
        intro id s h
        rcases hdoes.lives h with ⟨e, he, howner, hlive, hsecret⟩ | hmade
        · exact ⟨e, he, howner, by omega, hsecret⟩
        · exact absurd hmade (hmakes id s)
      exact hp.one id id' s s' (hlives id s h) (hlives id' s' h')
    · exact hp.agree s s' (source_step hc hp hnodelete hdoes hmakes h)
        (source_step hc hp hnodelete hdoes hmakes h')

omit [DecidableEq ι] in
theorem agreed_start (now : ℕ) (secrets : List (String × String)) :
    Agreed svc calls userId (enrollStart now secrets : EnrollPool ι) := by
  have hnone : ∀ id s, ¬ (enrollStart now secrets : EnrollPool ι).shared.Lives now userId id s := by
    rintro id s ⟨e, he, -⟩
    simp [enrollStart] at he
  refine ⟨fun id _ s _ h _ => absurd h (hnone id s), fun s s' h h' => ?_, ?_, ?_⟩
  · cases h with
    | pending id _ h => exact absurd h (hnone id s)
    | saving j e encrypted h => cases h
    | stored _ h =>
      cases h' with
      | pending id _ h' => exact absurd h' (hnone id s')
      | saving j e encrypted h' => cases h'
      | stored _ h' => exact Option.some.inj (h.symm.trans h')
  · intro j e encrypted h
    cases h
  · rintro j - (h | h) <;> cases h

/-- In every run without deletions whose steps are exclusive for the user, at most one entry of
the user is live in every state reached, and from the moment a confirmation of the user has
returned ok the stored secret stays the same. -/
theorem single_enrollment_of_run (svc : EnrollDeps) (hc : CipherLaws svc.crypto)
    (calls : ι → EnrollCall) (hnodelete : ∀ i, calls i ≠ .delete (calls i).userId)
    (userId : String) (now : ℕ) (secrets : List (String × String)) (ops : List (ι × EnrollStep))
    (hops : Along (enrollStep svc calls) (Exclusive calls userId) (enrollStart now secrets) ops) :
    (∀ id id' s s',
      let st := (runSteps (enrollStep svc calls) (enrollStart now secrets) ops).shared
      st.Lives st.now userId id s → st.Lives st.now userId id' s' → id = id') ∧
    ∀ ops₁ ops₂, ops = ops₁ ++ ops₂ → ∀ i, (calls i).userId = userId →
      (runSteps (enrollStep svc calls) (enrollStart now secrets) ops₁).locals i =
        .returned .confirmed →
      ∃ s, (runSteps (enrollStep svc calls) (enrollStart now secrets) ops₁).shared.stored svc
          userId = some s ∧
        (runSteps (enrollStep svc calls) (enrollStart now secrets) ops).shared.stored svc userId =
          some s := by
  have hstep := @agreed_step ι svc calls userId _ hc hnodelete
  refine ⟨(runSteps_invariant hstep (agreed_start now secrets) hops).one, ?_⟩
  rintro ops₁ ops₂ rfl i hi hdone
  obtain ⟨h₁, h₂⟩ := hops.append
  have hp := runSteps_invariant hstep (agreed_start now secrets) h₁
  obtain ⟨s, hs⟩ := hp.done i hi (.inr hdone)
  refine ⟨s, hs, ?_⟩
  rw [runSteps_append]
  have hboth := runSteps_invariant
    (fun p m (h : Agreed svc calls userId p ∧ p.shared.stored svc userId = some s) hm =>
      ⟨hstep p m h.1 hm, stored_step hc h.1 hnodelete h.2⟩) ⟨hp, hs⟩ h₂
  exact hboth.2

end Pool

theorem sampleCipher_laws : CipherLaws sampleCipher := by
  have hfind : ∀ x ∈ sampleSealed, x.2.2.length = AUTH_TAG_BYTES ∧
      sampleSealed.find? (fun y => y.2 = x.2) = some x := by decide +kernel
  have hseal : ∀ key iv plaintext ciphertext authTag,
      sampleCipher.gcmSeal key iv plaintext = some (ciphertext, authTag) →
      (key = sampleGcmKey ∧ iv = sampleIv.1) ∧ (plaintext, ciphertext, authTag) ∈ sampleSealed := by
    intro key iv plaintext ciphertext authTag h
    change (if _ then _ else _) = _ at h
    split_ifs at h with hkey
    refine ⟨hkey, ?_⟩
    obtain ⟨x, hx, hx'⟩ := Option.map_eq_some_iff.mp h
    have hpt : x.1 = plaintext := by simpa using List.find?_some hx
    have := List.mem_of_find?_eq_some hx
    rwa [← hpt, ← hx']
  refine ⟨fun b => ?_, fun s => ?_, fun key iv pt ct tag h => ?_, fun key iv pt ct tag h => ?_⟩
  · change Base64.decode _ (String.ofList _).toList = b
    rw [String.toList_ofList]
    refine Base64.decode_encode_append Base64.reads_standard _ b fun c hc => ?_
    rw [(List.mem_replicate.mp hc).2]
    decide
  · change String.ofList (Utf8.decode (Utf8.encode s.toList)) = s
    rw [Utf8.decode_encode, String.ofList_toList]
  · exact (hfind _ (hseal _ _ _ _ _ h).2).1
  · obtain ⟨hkey, hmem⟩ := hseal _ _ _ _ _ h
    change (if _ then _ else _) = _
    rw [if_pos hkey, (hfind _ hmem).2]
    rfl

/-- two enrollments of one user, and a right code for each -/
def twinCalls : Fin 4 → EnrollCall
  | 0 | 1 => .create "alice" none
  | 2 => .confirm "e1" "858575" "alice" none none
  | 3 => .confirm "e2" "747438" "alice" none none

/-- Both calls look before either has added its entry. -/
def twinCreates : List (Fin 4 × EnrollStep) :=
  [(0, .begin_ {} sampleIv), (1, .begin_ {} sampleIv), (0, .query .done), (1, .query .done),
    (0, .resume 0 "e1" (sampleBytes 0)), (1, .resume 0 "e2" (sampleBytes 100))]

def confirmFirst : List (Fin 4 × EnrollStep) :=
  [(2, .begin_ {} sampleIv), (2, .query .done), (2, .resume 0 "" [])]

def confirmSecond : List (Fin 4 × EnrollStep) :=
  [(3, .begin_ {} sampleIv), (3, .query .done), (3, .resume 0 "" [])]

/-- Two entries of one user are live, and the second confirmation replaces the secret that the
first one had stored when it returned ok. -/
theorem twin_enrollments :
    let made := runSteps (enrollStep sampleEnroll twinCalls) (enrollStart 59000 []) twinCreates
    let first := runSteps (enrollStep sampleEnroll twinCalls) made confirmFirst
    let second := runSteps (enrollStep sampleEnroll twinCalls) first confirmSecond
    ((∀ i, twinCalls i ≠ .delete (twinCalls i).userId) ∧ CipherLaws sampleEnroll.crypto) ∧
      (made.shared.Lives made.shared.now "alice" "e1" "AAAQEAYEAUDAOCAJBIFQYDIOB4IBCEQT" ∧
        made.shared.Lives made.shared.now "alice" "e2" "MRSWMZ3INFVGW3DNNZXXA4LSON2HK5TX") ∧
      first.locals 2 = .returned .confirmed ∧
      first.shared.stored sampleEnroll "alice" = some "AAAQEAYEAUDAOCAJBIFQYDIOB4IBCEQT" ∧
      second.shared.stored sampleEnroll "alice" = some "MRSWMZ3INFVGW3DNNZXXA4LSON2HK5TX" := by
  refine ⟨⟨?_, sampleCipher_laws⟩, ⟨⟨⟨"alice", "AAAQEAYEAUDAOCAJBIFQYDIOB4IBCEQT", 659000, 0⟩, ?_⟩,
    ⟨⟨"alice", "MRSWMZ3INFVGW3DNNZXXA4LSON2HK5TX", 659000, 0⟩, ?_⟩⟩, ?_, ?_, ?_⟩
  · intro i
    fin_cases i <;> simp [twinCalls]
  · decide +kernel
  · decide +kernel
  · decide +kernel
  · decide +kernel
  · decide +kernel

/-- the first of the two alone -/
theorem single_enrollment_of_run_alice :
    let ops : List (Fin 4 × EnrollStep) :=
      [(0, .begin_ {} sampleIv), (0, .query .done), (0, .resume 0 "e1" (sampleBytes 0))] ++
        confirmFirst
    let p := runSteps (enrollStep sampleEnroll twinCalls) (enrollStart 59000 []) ops
    p.locals 2 = .returned .confirmed ∧
      ∀ id id' s s', p.shared.Lives p.shared.now "alice" id s →
        p.shared.Lives p.shared.now "alice" id' s' → id = id' := by
  refine ⟨by decide +kernel, (single_enrollment_of_run sampleEnroll sampleCipher_laws twinCalls ?_
    "alice" 59000 [] _ (by decide +kernel)).1⟩
  intro i
  fin_cases i <;> simp [twinCalls]

end ZTG
