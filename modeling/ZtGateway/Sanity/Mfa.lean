import ZtGateway.Lib.Join
import ZtGateway.Lib.Run
import ZtGateway.Spec.Mfa

/-! What each call of `MfaChallenger` did when it succeeded, and what no call
changes: token rows keep everything but their revocation, and challenge rows
come from `createChallenge` alone. -/

namespace ZTG

/-- the draws and the identity of a minting call -/
def MfaOp.mints : MfaOp → Option (MintDraws × String × String × String)
  | .verifyTotp d _ _ userId ip deviceId _ => some (d.mint, userId, deviceId, ip)
  | .mintDemoMfaToken d userId deviceId ip => some (d, userId, deviceId, ip)
  | _ => none

/-- the token a reply carries, with its expiry -/
def MfaReply.token : MfaReply → Option (String × ℕ)
  | .verified (.ok token expiresAt) => some (token, expiresAt)
  | .minted (.ok r) => some r
  | _ => none

variable {svc : MfaDeps} {st st' : MfaState}

/-- the row a minting call stores under `id` -/
def mintedRow (svc : MfaDeps) (d : MintDraws) (userId deviceId ip id : String) : MfaTokenRow :=
  { jti := id, userId := userId, fingerprintHash := fingerprint svc.crypto userId deviceId ip,
    issuedAt := d.rowAt, expiresAt := d.now + svc.cfg.tokenTtlMs }

theorem tryInsert_ok {fault : Option String} {row : MfaTokenRow}
    (h : st.tryInsert fault row = .ok st') :
    st.tokenRow row.jti = none ∧ st' = { st with tokens := st.tokens ++ [row] } := by
  unfold MfaState.tryInsert at h
  cases fault with
  | some m => simp at h
  | none =>
    simp only at h
    split_ifs at h with hrow
    simp only [Except.ok.injEq] at h
    exact ⟨by simpa using hrow, h.symm⟩

theorem tryInsert_collision {fault : Option String} {row : MfaTokenRow}
    (h : st.tryInsert fault row = .error .uniqueViolation) :
    (st.tokenRow row.jti).isSome = true := by
  unfold MfaState.tryInsert at h
  cases fault with
  | some m => simp at h
  | none =>
    simp only at h
    split_ifs at h with hrow
    exact hrow

/-- A minted token is signed over the first id; its row carries that id unless the id was taken. -/
theorem mintMfaToken_ok {d : MintDraws} {userId deviceId ip token : String} {expiresAt : ℕ}
    (h : mintMfaToken svc st d userId deviceId ip = .ok ((token, expiresAt), st')) :
    token = svc.jose.sign (mintedClaims svc d userId deviceId ip) ∧
      expiresAt = d.now + svc.cfg.tokenTtlMs ∧
      ∃ id, st.tokenRow id = none ∧
        (id = d.jti ∨ (st.tokenRow d.jti).isSome = true ∧ id = d.retryId) ∧
        st' = { st with tokens := st.tokens ++ [mintedRow svc d userId deviceId ip id] } := by
  unfold mintMfaToken at h
  simp only at h
  split at h
  · next st₁ hins =>
    simp only [Except.ok.injEq, Prod.mk.injEq] at h
    obtain ⟨⟨rfl, rfl⟩, rfl⟩ := h
    refine ⟨rfl, rfl, ?_⟩
    unfold insertMfaToken at hins
    simp only at hins
    split at hins
    · next hcol =>
      obtain ⟨hnone, rfl⟩ := tryInsert_ok hins
      exact ⟨d.retryId, hnone, .inr ⟨tryInsert_collision hcol, rfl⟩, rfl⟩
    · obtain ⟨hnone, rfl⟩ := tryInsert_ok hins
      exact ⟨d.jti, hnone, .inl rfl, rfl⟩
  · simp at h

/-- The code is one that the stored secret of the user accepts. -/
def AcceptsCode (svc : MfaDeps) (st : MfaState) (userId totpCode : String) (now : ℕ) : Prop :=
  ∃ encrypted plain, st.getEncryptedSecret userId = some encrypted ∧
    aesGcmDecrypt svc.crypto encrypted svc.cfg.totpEncryptionKey = some plain ∧
    totpVerify svc.crypto now totpCode plain = .ok true

/-- The tables are as they were; the event bus may have more on it. -/
structure SameTables (st st' : MfaState) : Prop where
  challenges : st'.challenges = st.challenges
  tokens : st'.tokens = st.tokens
  secrets : st'.secrets = st.secrets

theorem SameTables.refl (st : MfaState) : SameTables st st := ⟨rfl, rfl, rfl⟩

theorem SameTables.emit (h : SameTables st st') (event : EventName)
    (payload : ThreatSignalPayload) : SameTables st (st'.emit event payload) :=
  ⟨h.challenges, h.tokens, h.secrets⟩

theorem SameTables.tokenRow (h : SameTables st st') (jti : String) :
    st'.tokenRow jti = st.tokenRow jti := by
  unfold MfaState.tokenRow
  rw [h.tokens]

section

variable (svc st) (d : VerifyDraws) (challengeId totpCode userId ip deviceId : String)
  (ja4h : Option String)

/-- A verification fails and changes no table, or it had a live challenge and an accepted
code and ends in a mint. -/
theorem verifyTotp_cases :
    (∃ reason st', verifyTotp svc st d challengeId totpCode userId ip deviceId ja4h =
      (.fail reason, st') ∧ SameTables st st') ∨
    (∃ row, st.getChallenge challengeId = some row ∧ d.checkedAt ≤ row.expiresAt) ∧
      AcceptsCode svc st userId totpCode d.totpAt ∧
      ∃ token expiresAt st', mintMfaToken svc st d.mint userId deviceId ip =
        .ok ((token, expiresAt), st') ∧
        verifyTotp svc st d challengeId totpCode userId ip deviceId ja4h =
          (.ok token expiresAt, st') := by
  unfold verifyTotp
  simp only
  by_cases hf : d.challengeFault.isSome = true
  · rw [if_pos hf]
    exact .inl ⟨_, _, rfl, ((SameTables.refl st).emit _ _).emit _ _⟩
  rw [if_neg hf]
  rcases hch : st.getChallenge challengeId with _ | row
  · exact .inl ⟨_, _, rfl, (SameTables.refl st).emit _ _⟩
  simp only
  by_cases hexp : row.expiresAt < d.checkedAt
  · rw [if_pos hexp]
    exact .inl ⟨_, _, rfl, (SameTables.refl st).emit _ _⟩
  rw [if_neg hexp]
  by_cases hsf : d.secretFault.isSome = true
  · rw [if_pos hsf]
    exact .inl ⟨_, _, rfl, ((SameTables.refl st).emit _ _).emit _ _⟩
  rw [if_neg hsf]
  rcases hsec : st.getEncryptedSecret userId with _ | encrypted
  · exact .inl ⟨_, _, rfl, (SameTables.refl st).emit _ _⟩
  simp only
  by_cases hemp : encrypted = ""
  · rw [if_pos hemp]
    exact .inl ⟨_, _, rfl, (SameTables.refl st).emit _ _⟩
  rw [if_neg hemp]
  split
  · exact .inl ⟨_, _, rfl, ((SameTables.refl st).emit _ _).emit _ _⟩
  · exact .inl ⟨_, _, rfl, ((SameTables.refl st).emit _ _).emit _ _⟩
  · next plain _ hplain =>
    rcases htotp : totpVerify svc.crypto d.totpAt totpCode plain with _ | _ | _
    · exact .inl ⟨_, _, rfl, ((SameTables.refl st).emit _ _).emit _ _⟩
    · exact .inl ⟨_, _, rfl, (SameTables.refl st).emit _ _⟩
    · rcases hmint : mintMfaToken svc st d.mint userId deviceId ip with
        _ | ⟨⟨token, expiresAt⟩, st'⟩
      · exact .inl ⟨_, _, rfl, ((SameTables.refl st).emit _ _).emit _ _⟩
      · exact .inr ⟨⟨row, rfl, not_lt.mp hexp⟩, ⟨encrypted, plain, hsec, hplain, htotp⟩, token,
          expiresAt, st', rfl, rfl⟩

end

/-- When a token is accepted. -/
theorem validateMfaToken_ok_iff {d : ValidateDraws} {token userId deviceId ip : String}
    {ja4h : Option String} {claims : MfaTokenClaims} :
    (validateMfaToken svc st d token userId deviceId ip ja4h).1 = .ok claims ↔
      svc.jose.verify token (d.verifiedAt / 1000) = some claims ∧ claims.typ = "mfa" ∧
        d.selectFault = none ∧
        ∃ row, st.tokenRow claims.jti = some row ∧ row.revokedAt = none ∧ d.readAt < row.expiresAt ∧
          row.fingerprintHash = fingerprint svc.crypto userId deviceId ip := by
  unfold validateMfaToken
  simp only
  rcases hv : svc.jose.verify token (d.verifiedAt / 1000) with _ | payload
  · simp
  simp only [Option.some.injEq]
  by_cases htyp : payload.typ = "mfa"
  · rw [if_neg (by simpa using htyp)]
    by_cases hf : d.selectFault.isSome = true
    · rw [if_pos hf]
      simp only [reduceCtorEq, false_iff]
      rintro ⟨-, -, hnone, -⟩
      simp [hnone] at hf
    · rw [if_neg hf]
      have hf : d.selectFault = none := by simpa using hf
      rcases hrow : st.tokenRow payload.jti with _ | row
      · simp only [reduceCtorEq, false_iff]
        rintro ⟨rfl, -, -, row, hrow', -⟩
        simp [hrow] at hrow'
      · simp only
        constructor
        · intro h
          split_ifs at h with hrev hexp hfp
          obtain rfl := MfaValidateResult.ok.inj h
          exact ⟨rfl, htyp, hf, row, hrow, by simpa using hrev, not_le.mp hexp,
            (not_not.mp hfp).symm⟩
        · rintro ⟨rfl, -, -, row', hrow', hrev, hexp, hfp⟩
          obtain rfl := Option.some.inj (hrow.symm.trans hrow')
          rw [if_neg (by simp [hrev]), if_neg (not_le.mpr hexp), if_neg (not_not.mpr hfp.symm)]
  · rw [if_pos (by simpa using htyp)]
    simp only [reduceCtorEq, false_iff]
    rintro ⟨rfl, h, -⟩
    exact htyp h

theorem validateMfaToken_tables {d : ValidateDraws} {token userId deviceId ip : String}
    {ja4h : Option String} :
    SameTables st (validateMfaToken svc st d token userId deviceId ip ja4h).2 := by
  unfold validateMfaToken
  simp only
  repeat' split
  all_goals first | exact (SameTables.refl st).emit _ _ | exact SameTables.refl st

theorem createChallenge_cases (d : CreateDraws) (userId ip : String) (ja4h : Option String) :
    SameTables st (createChallenge svc st d userId ip ja4h).2 ∨
    createChallenge svc st d userId ip ja4h =
      (.ok d.challengeId (.num (d.now + svc.cfg.challengeTtlMs : ℕ)),
        { st with challenges := st.challenges ++
        [{ challengeId := d.challengeId, userId := userId, createdAt := d.rowAt,
           expiresAt := d.now + svc.cfg.challengeTtlMs }] }) := by
  unfold createChallenge MfaState.insertChallengeIfUnderLimit
  simp only
  cases d.fault with
  | some m => exact .inl ((SameTables.refl st).emit _ _)
  | none =>
    simp only
    split_ifs
    · exact .inl ((SameTables.refl st).emit _ _)
    · exact .inr rfl
    · exact .inl ((SameTables.refl st).emit _ _)

/-- How a call can change the token table, and the token it returns. -/
inductive TokenChange (svc : MfaDeps) (st : MfaState) (op : MfaOp) :
    Option (String × ℕ) → List MfaTokenRow → Prop
  | same : TokenChange svc st op none st.tokens
  | minted (d : MintDraws) (userId deviceId ip id : String)
      (hop : op.mints = some (d, userId, deviceId, ip)) (hfresh : st.tokenRow id = none)
      (hid : id = d.jti ∨ (st.tokenRow d.jti).isSome = true ∧ id = d.retryId) :
      TokenChange svc st op
        (some (svc.jose.sign (mintedClaims svc d userId deviceId ip), d.now + svc.cfg.tokenTtlMs))
        (st.tokens ++ [mintedRow svc d userId deviceId ip id])
  | revoked (now : ℕ) (jti : String) (hop : op = .revokeMfaToken now jti) :
      TokenChange svc st op none
        (st.tokens.map fun r => if r.jti = jti then { r with revokedAt := some now } else r)

theorem mfaCall_tokens (op : MfaOp) :
    TokenChange svc st op (mfaCall svc st op).1.token (mfaCall svc st op).2.tokens := by
  cases op with
  | createChallenge d userId ip ja4h =>
    have : (createChallenge svc st d userId ip ja4h).2.tokens = st.tokens := by
      rcases @createChallenge_cases svc st d userId ip ja4h with h | h
      · exact h.tokens
      · rw [h]
    rw [show (mfaCall svc st (.createChallenge d userId ip ja4h)).2.tokens = st.tokens from this]
    exact .same
  | verifyTotp d challengeId totpCode userId ip deviceId ja4h =>
    rcases verifyTotp_cases svc st d challengeId totpCode userId ip deviceId ja4h with
      ⟨reason, st', h, hsame⟩ | ⟨-, -, token, expiresAt, st', hmint, h⟩
    · simp only [mfaCall, h, MfaReply.token, hsame.tokens]
      exact .same
    · obtain ⟨rfl, rfl, id, hfresh, hid, rfl⟩ := mintMfaToken_ok hmint
      simp only [mfaCall, h, MfaReply.token]
      exact .minted d.mint userId deviceId ip id rfl hfresh hid
  | mintDemoMfaToken d userId deviceId ip =>
    rcases hmint : mintMfaToken svc st d userId deviceId ip with e | ⟨⟨token, expiresAt⟩, st'⟩
    · simp only [mfaCall, mintDemoMfaToken, hmint, MfaReply.token]
      exact .same
    · obtain ⟨rfl, rfl, id, hfresh, hid, rfl⟩ := mintMfaToken_ok hmint
      simp only [mfaCall, mintDemoMfaToken, hmint, MfaReply.token]
      exact .minted d userId deviceId ip id rfl hfresh hid
  | validateMfaToken d token userId deviceId ip ja4h =>
    simp only [mfaCall, MfaReply.token, validateMfaToken_tables.tokens]
    exact .same
  | revokeMfaToken now jti => exact .revoked now jti rfl
  | saveSecret userId encrypted => exact .same
  | deleteSecret userId => exact .same

/-- `UPDATE mfa_tokens SET revoked_at = NOW() WHERE jti = $1`, on one row -/
def MfaTokenRow.markRevoked (now : ℕ) (jti : String) (r : MfaTokenRow) : MfaTokenRow :=
  if r.jti = jti then { r with revokedAt := some now } else r

theorem tokenRow_revoked (now : ℕ) (jti jti' : String) :
    (st.revokeMfaToken now jti').tokenRow jti =
      (st.tokenRow jti).map (MfaTokenRow.markRevoked now jti') := by
  have hkey : ((fun r : MfaTokenRow => r.jti == jti) ∘ MfaTokenRow.markRevoked now jti') =
      fun r => r.jti == jti := by
    funext r
    simp only [Function.comp, MfaTokenRow.markRevoked]
    split_ifs <;> rfl
  show List.find? _ (st.tokens.map (MfaTokenRow.markRevoked now jti')) = _
  rw [List.find?_map, hkey]
  rfl

/-- A stored row stays as it is until its own jti is revoked. -/
theorem mfaCall_keeps_row {jti : String} {row : MfaTokenRow} (h : st.tokenRow jti = some row)
    (op : MfaOp) (hop : ∀ now, op ≠ .revokeMfaToken now jti) :
    (mfaCall svc st op).2.tokenRow jti = some row := by
  have hjti : row.jti = jti := by simpa using List.find?_some h
  by_cases hrev : ∃ now jti', op = .revokeMfaToken now jti'
  · obtain ⟨now, jti', rfl⟩ := hrev
    have hne : row.jti ≠ jti' := by
      rw [hjti]
      rintro rfl
      exact hop now rfl
    rw [show (mfaCall svc st (.revokeMfaToken now jti')).2 = st.revokeMfaToken now jti' from rfl,
      tokenRow_revoked, h]
    simp [MfaTokenRow.markRevoked, hne]
  · have hch := @mfaCall_tokens svc st op
    unfold MfaState.tokenRow at h ⊢
    generalize (mfaCall svc st op).2.tokens = tokens at hch
    generalize (mfaCall svc st op).1.token = reply at hch
    cases hch with
    | same => exact h
    | minted d userId deviceId ip id hmints hfresh hid => rw [List.find?_append, h, Option.some_or]
    | revoked now jti' hop' => exact absurd ⟨now, jti', hop'⟩ hrev

theorem mfaCall_keeps_fingerprint {jti : String} {row : MfaTokenRow}
    (h : st.tokenRow jti = some row) (op : MfaOp) :
    ∃ row', (mfaCall svc st op).2.tokenRow jti = some row' ∧
      row'.fingerprintHash = row.fingerprintHash := by
  by_cases hop : ∃ now, op = .revokeMfaToken now jti
  · obtain ⟨now, rfl⟩ := hop
    refine ⟨row.markRevoked now jti, ?_, ?_⟩
    · rw [show (mfaCall svc st (.revokeMfaToken now jti)).2 = st.revokeMfaToken now jti from rfl,
        tokenRow_revoked, h]
      rfl
    · unfold MfaTokenRow.markRevoked
      split_ifs <;> rfl
  · exact ⟨row, mfaCall_keeps_row h op fun now hnow => hop ⟨now, hnow⟩, rfl⟩

/-- How a call can change the challenge table. -/
theorem mfaCall_challenges (op : MfaOp) :
    (mfaCall svc st op).2.challenges = st.challenges ∨
    ∃ d userId ip ja4h, op = .createChallenge d userId ip ja4h ∧
      (mfaCall svc st op).1 =
        .created (.ok d.challengeId (.num (d.now + svc.cfg.challengeTtlMs : ℕ))) ∧
      (mfaCall svc st op).2.challenges = st.challenges ++
        [{ challengeId := d.challengeId, userId := userId, createdAt := d.rowAt,
           expiresAt := d.now + svc.cfg.challengeTtlMs }] := by
  cases op with
  | createChallenge d userId ip ja4h =>
    rcases @createChallenge_cases svc st d userId ip ja4h with h | h
    · exact .inl h.challenges
    · exact .inr ⟨d, userId, ip, ja4h, rfl, by simp [mfaCall, h], by simp [mfaCall, h]⟩
  | verifyTotp d challengeId totpCode userId ip deviceId ja4h =>
    left
    rcases verifyTotp_cases svc st d challengeId totpCode userId ip deviceId ja4h with
      ⟨reason, st', h, hsame⟩ | ⟨-, -, token, expiresAt, st', hmint, h⟩
    · simpa only [mfaCall, h] using hsame.challenges
    · obtain ⟨-, -, id, -, -, rfl⟩ := mintMfaToken_ok hmint
      simp only [mfaCall, h]
  | mintDemoMfaToken d userId deviceId ip =>
    left
    rcases hmint : mintMfaToken svc st d userId deviceId ip with e | ⟨⟨token, expiresAt⟩, st'⟩
    · simp only [mfaCall, mintDemoMfaToken, hmint]
    · obtain ⟨-, -, id, -, -, rfl⟩ := mintMfaToken_ok hmint
      simp only [mfaCall, mintDemoMfaToken, hmint]
  | validateMfaToken d token userId deviceId ip ja4h =>
    exact .inl validateMfaToken_tables.challenges
  | revokeMfaToken now jti => exact .inl rfl
  | saveSecret userId encrypted => exact .inl rfl
  | deleteSecret userId => exact .inl rfl

/-- The call behind an entry of the log, and the tables it was made on. -/
theorem mfaLog_split {w : MfaWorld} (hw : w.log = []) {ops : List MfaOp}
    {pre post : List (MfaOp × MfaReply)} {op : MfaOp} {r : MfaReply}
    (h : (runSteps (MfaWorld.step svc) w ops).log = pre ++ (op, r) :: post) :
    ∃ ops₁ ops₂, ops = ops₁ ++ op :: ops₂ ∧ (runSteps (MfaWorld.step svc) w ops₁).log = pre ∧
      (mfaCall svc (runSteps (MfaWorld.step svc) w ops₁).state op).1 = r := by
  obtain ⟨ops₁, op', ops₂, rfl, hlog, he⟩ := Logged.log_split hw h
  obtain ⟨rfl, rfl⟩ := Prod.mk.inj he
  exact ⟨ops₁, ops₂, rfl, hlog, rfl⟩

theorem mfaLog_mem {w : MfaWorld} (hw : w.log = []) {ops : List MfaOp} {op : MfaOp} {r : MfaReply}
    (h : (op, r) ∈ (runSteps (MfaWorld.step svc) w ops).log) : op ∈ ops := by
  obtain ⟨pre, post, hsplit⟩ := List.append_of_mem h
  obtain ⟨ops₁, ops₂, rfl, -⟩ := mfaLog_split hw hsplit
  simp

end ZTG
